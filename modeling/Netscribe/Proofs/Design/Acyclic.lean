import Mathlib.Logic.Relation
import Netscribe.Proofs.Design.Hierarchy

/-!
# Hierarchies without cycles

Below a circuit of an acyclic hierarchy every path leads, after no more circuits than the design
has, to one that instantiates nothing or to a reference that leads nowhere.

* `Design.Instantiates`, `Design.Acyclic` — no circuit is below itself.
* `Design.Shallow` — all paths down from a circuit end in time, wherever they end.
* `Design.acyclic_of_lt` — circuits in order make an acyclic hierarchy.
* **`Design.Acyclic.shallow`** — an acyclic hierarchy is no deeper than its circuits are many.
-/

namespace Netscribe.Design

variable {d : Design}

/-- A circuit has an instance that refers to another, which need not exist. -/
def Instantiates (d : Design) (id child : UInt32) : Prop :=
  ∃ c, d.circuit? id = some c ∧ child ∈ c.netlist.children

/-- **No circuit is below itself.**  References may lead nowhere. -/
def Acyclic (d : Design) : Prop :=
  ∀ id, ¬ Relation.TransGen d.Instantiates id id

/-- **All paths down from a circuit end** after at most so many circuits that exist. -/
def Shallow (d : Design) : ℕ → UInt32 → Prop
  | 0, id => d.circuit? id = none
  | levels + 1, id =>
    ∀ c, d.circuit? id = some c → ∀ child ∈ c.netlist.children, Shallow d levels child

/-- The circuits on the way down to one, the nearest first. -/
structure Trail (d : Design) (path : List UInt32) (id : UInt32) : Prop where
  nodup : path.Nodup
  exist : ∀ x ∈ path, (d.circuit? x).isSome
  above : ∀ x ∈ path, Relation.TransGen d.Instantiates x id

namespace Trail

variable {path : List UInt32} {id child : UInt32} {c : Circuit}

lemma nil : d.Trail [] id :=
  ⟨List.nodup_nil, by simp, by simp⟩

lemma push (h : d.Trail path id) (hacyclic : d.Acyclic) (hc : d.circuit? id = some c)
    (hchild : child ∈ c.netlist.children) : d.Trail (id :: path) child := by
  have hstep : d.Instantiates id child := ⟨c, hc, hchild⟩
  refine ⟨List.nodup_cons.2 ⟨fun hid => hacyclic id (h.above id hid), h.nodup⟩,
    fun x hx => ?_, fun x hx => ?_⟩
  · rcases List.mem_cons.1 hx with rfl | hx
    · simp [hc]
    · exact h.exist x hx
  · rcases List.mem_cons.1 hx with rfl | hx
    · exact .single hstep
    · exact (h.above x hx).tail hstep

/-- Below as many circuits as there are, nothing exists. -/
lemma shallow (hacyclic : d.Acyclic) {levels : ℕ} (h : d.Trail path id)
    (hlevels : d.circuits.size ≤ levels + path.length) : d.Shallow levels id := by
  induction levels generalizing path id with
  | zero =>
      show d.circuit? id = none
      cases hc : d.circuit? id with
      | none => rfl
      | some c =>
          have hid : id ∉ path := fun hid => hacyclic id (h.above id hid)
          have hlength : (id :: path).length ≤ d.circuits.size := by
            refine length_le_of_nodup (List.nodup_cons.2 ⟨hid, h.nodup⟩) fun x hx => ?_
            rcases List.mem_cons.1 hx with rfl | hx
            · simp [hc]
            · exact h.exist x hx
          simp only [List.length_cons] at hlength
          omega
  | succ levels ih =>
      intro c hc child hchild
      refine ih (h.push hacyclic hc hchild) ?_
      simp only [List.length_cons]
      omega

end Trail

/-- **An acyclic hierarchy is no deeper than its circuits are many.** -/
theorem Acyclic.shallow (h : d.Acyclic) (id : UInt32) : d.Shallow d.circuits.size id :=
  Trail.nil.shallow h (Nat.le_refl _)

/-- A hierarchy in which every circuit comes after those it instantiates is acyclic. -/
lemma acyclic_of_lt (h : ∀ i (hi : i < d.circuits.size),
    (d.circuits[i].netlist.children.all fun child => child.toNat < i) = true) : d.Acyclic := by
  have hbelow : ∀ a b, d.Instantiates a b → b.toNat < a.toNat := by
    rintro a b ⟨c, hc, hb⟩
    obtain ⟨hi, rfl⟩ := Array.getElem?_eq_some_iff.1 hc
    simpa using List.all_eq_true.1 (h a.toNat hi) b hb
  intro id hid
  have hlt : ∀ b, Relation.TransGen d.Instantiates id b → b.toNat < id.toNat := by
    intro b hb
    induction hb with
    | single hstep => exact hbelow _ _ hstep
    | tail _ hstep ih => exact Nat.lt_trans (hbelow _ _ hstep) ih
  exact Nat.lt_irrefl _ (hlt id hid)

end Netscribe.Design
