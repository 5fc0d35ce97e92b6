import Mathlib.Tactic.Common
import Netscribe.Netlist.Root

/-!
# What a root stands for

`rootOf` follows views until it meets storage.  What one step of this can come to is said here once,
and everything about searches is derived from it.

* `addWord?_eq_some_iff`, `addWord?_eq_none_iff` — the sum of two words, where it is a word.
* `Netlist.step?_eq_root_iff`, `Netlist.step?_eq_view_iff`, `Netlist.rootWithin_succ_eq_some_iff` — a
  step, and a search with one step more.
* `Netlist.rootOf_isStorage` — a root is a bit of a net that has storage of its own.
-/

namespace Netscribe

/-! ## Sums of words -/

lemma addWord?_eq_some_iff {a b sum : UInt32} :
    addWord? a b = some sum ↔ a.toNat + b.toNat = sum.toNat := by
  rw [addWord?]
  constructor
  · intro h
    split_ifs at h with hlt
    rw [← Option.some.inj h, UInt32.toNat_add, Nat.mod_eq_of_lt hlt]
  · intro h
    rw [if_pos (h ▸ sum.toNat_lt)]
    refine congrArg some (UInt32.toNat_inj.1 ?_)
    rw [UInt32.toNat_add, h, Nat.mod_eq_of_lt sum.toNat_lt]

lemma addWord?_eq_none_iff {a b : UInt32} : addWord? a b = none ↔ UInt32.size ≤ a.toNat + b.toNat := by
  simp [addWord?]

namespace Netlist

variable {nl : Netlist}

/-! ## Roots -/

/-- A bit of a net that is not followed any further: a bit with storage of its own. -/
def IsStorage (nl : Netlist) (p : Point) : Prop :=
  ∃ net, nl.net? p.net = some net ∧ p.bit < net.width ∧ net.follow? = none

lemma step?_eq_root_iff {p : Point} : nl.step? p = some .root ↔ nl.IsStorage p := by
  constructor
  · intro h
    simp only [step?, Option.bind_eq_bind, Option.bind_eq_some_iff] at h
    obtain ⟨net, hnet, h⟩ := h
    split_ifs at h with hbit
    cases hf : net.follow? with
    | none => exact ⟨net, hnet, hbit, hf⟩
    | some view => simp [hf] at h
  · rintro ⟨net, hnet, hbit, hnone⟩
    simp [step?, hnet, hbit, hnone]

/-- A bit of a net that is followed goes to the bit of the parent that it stands for. -/
lemma step?_eq_view_iff {p q : Point} : nl.step? p = some (.view q) ↔
    ∃ net view, nl.net? p.net = some net ∧ p.bit < net.width ∧ net.follow? = some view
      ∧ q.net = view.net ∧ q.bit.toNat = p.bit.toNat + view.offset.toNat := by
  constructor
  · intro h
    simp only [step?, Option.bind_eq_bind, Option.bind_eq_some_iff] at h
    obtain ⟨net, hnet, h⟩ := h
    split_ifs at h with hbit
    cases hview : net.follow? with
    | none => simp [hview] at h
    | some view =>
        simp only [hview, Option.map_eq_some_iff, Step.view.injEq] at h
        obtain ⟨bit, hsum, rfl⟩ := h
        exact ⟨net, view, hnet, hbit, hview, rfl, (addWord?_eq_some_iff.1 hsum).symm⟩
  · rintro ⟨net, view, hnet, hbit, hview, hq, hsum⟩
    obtain ⟨id, bit⟩ := q
    obtain rfl : id = view.net := hq
    simp [step?, hnet, hbit, hview, addWord?_eq_some_iff.2 hsum.symm]

/-- **A search ends at once or goes on from the bit that is followed.** -/
lemma rootWithin_succ_eq_some_iff {steps : ℕ} {p r : Point} :
    nl.rootWithin (steps + 1) p = some r ↔
      nl.step? p = some .root ∧ p = r
        ∨ ∃ q, nl.step? p = some (.view q) ∧ nl.rootWithin steps q = some r := by
  rw [rootWithin]
  cases nl.step? p with
  | none => simp
  | some step => cases step <;> simp

/-- However many steps are allowed, a root that is found is storage. -/
lemma rootWithin_isStorage {steps : ℕ} {p r : Point} (h : nl.rootWithin steps p = some r) :
    nl.IsStorage r := by
  induction steps generalizing p with
  | zero => cases h
  | succ steps ih =>
      rcases rootWithin_succ_eq_some_iff.1 h with ⟨hroot, rfl⟩ | ⟨q, -, hq⟩
      · exact step?_eq_root_iff.1 hroot
      · exact ih hq

/-- **A root has storage of its own.** -/
theorem rootOf_isStorage {p r : Point} (h : nl.rootOf p = some r) : nl.IsStorage r :=
  rootWithin_isStorage h

end Netlist

end Netscribe
