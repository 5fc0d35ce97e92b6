import Mathlib.Tactic.Common
import Std.Data.String.ToNat
import Netscribe.Primitive.Registry

/-!
# Names of primitives

A definition is named from the attributes of a component, and so is the primitive made that it defines,
each by a rule of its own: where there is no proper width, the name is that of a single bit, and there
is no primitive.  Where there is one, the name is the primitive's, and it tells which primitive it is.

* `Primitive.name_injective` — a primitive is told by its name.
* `Factory.definitionName`, `Registry.definitionName?` — the name from attributes, and that of a
  component.
* **`Registry.definitionName?_eq`** — a component is named as its primitive is.
* `Registry.primitive_eq_of_definitionName?` — components with one name ask for one primitive.
-/

namespace Netscribe

lemma Gate.name_injective : Function.Injective Gate.name := by
  intro g h
  cases g <;> cases h <;> decide

lemma Gate.name_ne_multiplexer (g : Gate) (width : ℕ) :
    g.name ++ "_GATE" ≠ Multiplexer.name width := by
  intro h
  have hhead := congrArg (fun s : String => s.toList.head?) h
  simp only [Multiplexer.name, String.toList_append] at hhead
  cases g <;> exact absurd hhead (by simp [Gate.name])

/-- **A primitive is told by its name.** -/
theorem Primitive.name_injective : Function.Injective Primitive.name := by
  intro p q h
  cases p with
  | gate g =>
      cases q with
      | gate g' => rw [Gate.name_injective ((String.append_left_inj _).1 h)]
      | multiplexer width => exact absurd h (g.name_ne_multiplexer width.toNat)
  | multiplexer width =>
      cases q with
      | gate g => exact absurd h.symm (g.name_ne_multiplexer width.toNat)
      | multiplexer width' =>
          have hrepr : width.toNat.repr = width'.toNat.repr := (String.append_right_inj _).1 h
          rw [UInt32.toNat_inj.1 (Nat.repr_injective hrepr)]

/-! ## Names from attributes -/

/-- **The name that a factory gives to a definition**, from the attributes alone.  There is always one,
also where the attributes describe nothing that could be made. -/
def Factory.definitionName (attributes : Attributes) : Factory → String
  | .gate g => g.name ++ "_GATE"
  | .multiplexer => Multiplexer.name ((Multiplexer.dataWidth? attributes).getD 1).toNat

lemma Factory.definitionName_of_primitive? {f : Factory} {attributes : Attributes} {p : Primitive}
    (h : f.primitive? attributes = some p) : f.definitionName attributes = p.name := by
  cases f with
  | gate g =>
      obtain rfl := Option.some.inj h
      rfl
  | multiplexer =>
      obtain ⟨width, hwidth, rfl⟩ := Option.map_eq_some_iff.1 h
      rw [definitionName, hwidth]
      rfl

namespace Registry

variable {r : Registry} {c c' : Component} {p p' : Primitive}

/-- **The name under which a component's primitive is defined**, where there is one. -/
def definitionName? (r : Registry) (c : Component) : Option String :=
  match c.kind with
  | .primitive name attributes => do
    let f ← r.factory? name
    let _ ← f.primitive? attributes
    return f.definitionName attributes
  | _ => none

/-- **A component is named as its primitive is.** -/
theorem definitionName?_eq (r : Registry) (c : Component) :
    r.definitionName? c = (r.resolve? c).map Primitive.name := by
  rw [definitionName?, resolve?]
  cases c.kind with
  | primitive name attributes =>
      dsimp only
      cases r.factory? name with
      | none => rfl
      | some f =>
          show (f.primitive? attributes).bind (fun _ => some (f.definitionName attributes))
            = (f.primitive? attributes).map Primitive.name
          cases h : f.primitive? attributes with
          | none => rfl
          | some p => exact congrArg some (Factory.definitionName_of_primitive? h)
  | _ => rfl

/-- **Components with one name ask for one primitive**, whichever factories make it, and under whatever
names these are registered. -/
lemma primitive_eq_of_definitionName? (h : r.resolve? c = some p) (h' : r.resolve? c' = some p')
    (hname : r.definitionName? c = r.definitionName? c') : p = p' := by
  rw [definitionName?_eq, definitionName?_eq, h, h'] at hname
  exact Primitive.name_injective (Option.some.inj hname)

end Registry

end Netscribe
