import Mathlib.Data.Int.Notation
import Mathlib.Tactic.Common
import Netscribe.Design.Validation
import Netscribe.Proofs.Netlist.Root

/-!
# What the references of a netlist need

A point must be a bit of a net, a view must lie inside the net that it is a view of, and every
component stands in a list for its kind.  The checks of the library look at one thing after the
other and stop at the first that is wrong; each of them accepts what is in order and nothing else.

* `Netlist.HasBit`, `Netlist.Attached`, `Netlist.SoundNet` — what is in order.
* `bind_eq_ok_iff`, `forM_eq_ok_iff` — what checks in sequence accept.
* **`Netlist.checkNet_eq_ok_iff`**, **`Netlist.checkComponent_eq_ok_iff`** — what each check accepts.
-/

namespace Netscribe

/-! ## References in order -/

namespace Netlist

variable (nl : Netlist)

/-- **A point that is a bit of a net.** -/
def HasBit (p : Point) : Prop :=
  ∃ net, nl.net? p.net = some net ∧ p.bit < net.width

/-- A component whose connected bits are all bits of nets. -/
def Attached (c : Component) : Prop :=
  ∀ t ∈ c.terminals, ∀ p, some p ∈ t.bits → nl.HasBit p

/-- **A net that leads to nothing unknown**: it has bits, its last one lies inside the net that it is
a view of, and its drivers and loads are bits of nets. -/
structure SoundNet (net : Net) : Prop where
  positive : 1 ≤ net.width
  /-- The last bit of a view, as an integer, is a bit of the parent. -/
  inside : ∀ view, net.parent = some view → ∃ parent, nl.net? view.net = some parent
    ∧ (view.offset.toNat : ℤ) + net.width.toNat - 1 < parent.width.toNat
  sources : ∀ points ∈ net.sources, ∀ p ∈ points, nl.HasBit p
  sinks : ∀ points ∈ net.sinks, ∀ p ∈ points, nl.HasBit p

end Netlist

/-! ## Checks in sequence -/

section Checks

variable {α ε ε' : Type}

/-- Two checks in sequence accept what both of them do. -/
lemma bind_eq_ok_iff {x y : Except ε Unit} :
    (x >>= fun _ => y) = .ok () ↔ x = .ok () ∧ y = .ok () := by
  cases x with
  | error e => exact iff_of_false (fun h => nomatch h) fun h => nomatch h.1
  | ok a => exact (and_iff_right rfl).symm

/-- A check of a list accepts it if it accepts each entry. -/
lemma forM_eq_ok_iff {f : α → Except ε Unit} {xs : List α} :
    xs.forM f = .ok () ↔ ∀ x ∈ xs, f x = .ok () := by
  induction xs with
  | nil => exact iff_of_true rfl (by simp)
  | cons x xs ih =>
      show (f x >>= fun _ => xs.forM f) = .ok () ↔ _
      rw [bind_eq_ok_iff, ih, List.forall_mem_cons]

lemma mapError_bind (g : ε → ε') (x y : Except ε Unit) :
    (x >>= fun _ => y).mapError g = (x.mapError g >>= fun _ => y.mapError g) := by
  cases x <;> rfl

lemma mapError_forM (g : ε → ε') (f : α → Except ε Unit) (xs : List α) :
    (xs.forM f).mapError g = xs.forM fun x => (f x).mapError g := by
  induction xs with
  | nil => rfl
  | cons x xs ih =>
      show (f x >>= fun _ => xs.forM f).mapError g = ((f x).mapError g >>= fun _ => _)
      rw [mapError_bind, ih]

end Checks

/-! ## What each check accepts -/

/-- From a positive width one can be taken. -/
lemma toNat_sub_one {w : UInt32} (h : w ≠ 0) : (w - 1).toNat + 1 = w.toNat := by
  have hle : (1 : UInt32) ≤ w := by
    rw [UInt32.le_iff_toNat_le]
    exact Nat.one_le_iff_ne_zero.2 fun h0 => h (UInt32.toNat_inj.1 h0)
  rw [UInt32.toNat_sub_of_le _ _ hle]
  exact Nat.sub_add_cancel (UInt32.le_iff_toNat_le.1 hle)

namespace Netlist

variable {nl : Netlist} {circuit : String}

lemma checkPoint_eq_ok_iff {p : Point} : nl.checkPoint circuit p = .ok () ↔ nl.HasBit p := by
  rw [checkPoint, HasBit]
  cases nl.net? p.net with
  | none => simp
  | some net => simp [UInt32.not_le]

/-- A view is accepted if its last bit, as an integer, is a bit of the parent. -/
lemma checkParent_eq_ok_iff {net : Net} {id : ℕ} (hwidth : net.width ≠ 0) :
    nl.checkParent circuit net id = .ok () ↔
      ∀ view, net.parent = some view → ∃ parent, nl.net? view.net = some parent
        ∧ (view.offset.toNat : ℤ) + net.width.toNat - 1 < parent.width.toNat := by
  have hone := toNat_sub_one hwidth
  rw [checkParent]
  cases net.parent with
  | none => simp
  | some view =>
      simp only [Option.some.injEq, forall_eq']
      cases hlast : addWord? view.offset (net.width - 1) with
      | none =>
          -- no net has a bit at such a place
          have hsize := addWord?_eq_none_iff.1 hlast
          refine iff_of_false (fun h => nomatch h) ?_
          rintro ⟨parent, -, hlt⟩
          have := parent.width.toNat_lt
          simp only [UInt32.size] at hsize
          omega
      | some last =>
          have hsum := addWord?_eq_some_iff.1 hlast
          show nl.checkPoint circuit ⟨view.net, last⟩ = .ok () ↔ _
          rw [checkPoint_eq_ok_iff, HasBit]
          refine exists_congr fun parent => and_congr_right fun _ => ?_
          rw [UInt32.lt_iff_toNat_lt]
          show last.toNat < _ ↔ _
          omega

lemma checkPoints_eq_ok_iff {points : List (List Point)} :
    points.flatten.forM (nl.checkPoint circuit) = .ok () ↔
      ∀ ps ∈ points, ∀ p ∈ ps, nl.HasBit p := by
  simp only [forM_eq_ok_iff, checkPoint_eq_ok_iff, List.mem_flatten]
  exact ⟨fun h ps hps p hp => h p ⟨ps, hps, hp⟩, fun h p ⟨ps, hps, hp⟩ => h ps hps p hp⟩

/-- The check of a net, one part after the other. -/
lemma checkNet_eq {net : Net} {id : ℕ} :
    nl.checkNet circuit net id =
      if net.width = 0 then .error (.zeroWidth circuit id)
      else (do
        nl.checkParent circuit net id
        net.sources.flatten.forM (nl.checkPoint circuit)
        net.sinks.flatten.forM (nl.checkPoint circuit)) := by
  rw [checkNet]
  split <;> rfl

/-- **The check of a net.** -/
theorem checkNet_eq_ok_iff {net : Net} {id : ℕ} :
    nl.checkNet circuit net id = .ok () ↔ nl.SoundNet net := by
  rw [checkNet_eq]
  split
  · next hwidth =>
      refine iff_of_false (fun h => nomatch h) fun h => ?_
      have hpositive := h.positive
      rw [hwidth] at hpositive
      exact absurd hpositive (by decide)
  · next hwidth =>
      have hpositive : 1 ≤ net.width := by
        rw [UInt32.le_iff_toNat_le]
        exact Nat.one_le_iff_ne_zero.2 fun h0 => hwidth (UInt32.toNat_inj.1 h0)
      simp only [bind_eq_ok_iff, checkParent_eq_ok_iff hwidth, checkPoints_eq_ok_iff]
      exact ⟨fun ⟨hinside, hsources, hsinks⟩ => ⟨hpositive, hinside, hsources, hsinks⟩,
        fun h => ⟨h.inside, h.sources, h.sinks⟩⟩

/-- **The check of a component's connections.** -/
theorem checkComponent_eq_ok_iff {c : Component} :
    nl.checkComponent circuit c = .ok () ↔ nl.Attached c := by
  simp only [checkComponent, forM_eq_ok_iff, checkPoint_eq_ok_iff, List.mem_flatMap,
    List.mem_filterMap, id_eq, exists_eq_right, Attached]
  exact ⟨fun h t ht p hp => h p ⟨t, ht, hp⟩, fun h p ⟨t, ht, hp⟩ => h t ht p hp⟩

lemma checkPrimitive_eq_ok_iff {c : Component} :
    nl.checkPrimitive circuit c = .ok () ↔
      (∃ factory attributes, c.kind = .primitive factory attributes) ∧ nl.Attached c := by
  rw [checkPrimitive]
  cases c.kind <;> simp [checkComponent_eq_ok_iff]

lemma checkPin_eq_ok_iff {c : Component} :
    nl.checkPin circuit c = .ok () ↔ c.kind = .pin ∧ nl.Attached c := by
  rw [checkPin]
  cases c.kind <;> simp [checkComponent_eq_ok_iff]

end Netlist

end Netscribe
