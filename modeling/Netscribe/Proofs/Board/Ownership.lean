import Mathlib.Data.List.Pairwise
import Mathlib.Tactic.Common
import Netscribe.Project.Basic
import Netscribe.Proofs.Netlist.Sound

/-!
# Who owns a bubble

A resource owns the bubbles from its first one on, one for each pin.  A board is accepted if no two
resources have runs that overlap, and then no bubble has two owners.  The converse has an exception:
a resource without pins owns nothing, and yet its run overlaps one that it lies inside of.

* `Board.Resource.Owns`, `Board.Resource.LiesInside` — the owner of a bubble, and a resource without
  pins between the bubbles of another.
* `Board.Resource.overlaps_iff` — what it means that runs overlap.
* `Board.checkApart_eq_ok_iff` — which lists of resources are accepted.
* **`Project.check_overlapping_iff`** — which projects are refused for an overlap.
-/

namespace Netscribe

namespace Board

/-! ## Resources -/

namespace Resource

variable {a b r : Resource} {bubble : UInt32}

/-- **A resource owns a bubble** if the bubble belongs to one of its pins. -/
def Owns (r : Resource) (bubble : UInt32) : Prop :=
  (r.pinOf? bubble).isSome

/-- **A resource without pins stands between the bubbles of another**, after its first one. -/
def LiesInside (a b : Resource) : Prop :=
  a.pins = [] ∧ b.firstBubble.toNat < a.firstBubble.toNat ∧ a.firstBubble.toNat < b.endBubble

lemma pinOf?_eq_some_iff {index : ℕ} : r.pinOf? bubble = some index ↔
    r.firstBubble.toNat + index = bubble.toNat ∧ index < r.pins.length := by
  rw [pinOf?]
  by_cases hle : r.firstBubble ≤ bubble
  · have hle' := UInt32.le_iff_toNat_le.1 hle
    rw [if_pos hle, Option.ite_none_right_eq_some]
    constructor
    · rintro ⟨hlt, hindex⟩
      obtain rfl := Option.some.inj hindex
      omega
    · rintro ⟨hsum, hlt⟩
      obtain rfl : bubble.toNat - r.firstBubble.toNat = index := by omega
      exact ⟨hlt, rfl⟩
  · have hlt := UInt32.lt_iff_toNat_lt.1 (UInt32.not_le.1 hle)
    rw [if_neg hle]
    exact iff_of_false (fun h => nomatch h) (by omega)

/-- **The bubbles owned**: from the first one to the end, which is not owned any more. -/
lemma owns_iff :
    r.Owns bubble ↔ r.firstBubble.toNat ≤ bubble.toNat ∧ bubble.toNat < r.endBubble := by
  rw [Owns, Option.isSome_iff_exists, endBubble]
  simp only [pinOf?_eq_some_iff]
  constructor
  · rintro ⟨index, hsum, hlt⟩
    omega
  · rintro ⟨hle, hlt⟩
    exact ⟨bubble.toNat - r.firstBubble.toNat, by omega, by omega⟩

lemma LiesInside.not_owns (h : a.LiesInside b) (bubble : UInt32) : ¬ a.Owns bubble := by
  rw [owns_iff, endBubble, h.1, List.length_nil]
  omega

lemma overlaps_eq_true_iff : a.overlaps b = true ↔
    a.firstBubble.toNat < b.endBubble ∧ b.firstBubble.toNat < a.endBubble := by
  rw [overlaps, Bool.and_eq_true, decide_eq_true_iff, decide_eq_true_iff]

lemma overlaps_comm : a.overlaps b = b.overlaps a :=
  Bool.and_comm _ _

lemma overlaps_of_owns (ha : a.Owns bubble) (hb : b.Owns bubble) : a.overlaps b = true := by
  rw [owns_iff] at ha hb
  exact overlaps_eq_true_iff.2 ⟨by omega, by omega⟩

/-- The later one of two first bubbles is owned by both, if each run goes beyond it. -/
lemma exists_owns_of_lt (hab : a.firstBubble.toNat < b.endBubble)
    (hba : b.firstBubble.toNat < a.endBubble) (ha : a.firstBubble.toNat < a.endBubble)
    (hb : b.firstBubble.toNat < b.endBubble) : ∃ bubble, a.Owns bubble ∧ b.Owns bubble := by
  rcases Nat.le_total a.firstBubble.toNat b.firstBubble.toNat with hle | hle
  · exact ⟨b.firstBubble, owns_iff.2 ⟨hle, hba⟩, owns_iff.2 ⟨Nat.le_refl _, hb⟩⟩
  · exact ⟨a.firstBubble, owns_iff.2 ⟨Nat.le_refl _, ha⟩, owns_iff.2 ⟨hle, hab⟩⟩

/-- **What it means that two runs overlap**: they share a bubble, or one of them is empty and lies
inside the other. -/
theorem overlaps_iff : a.overlaps b = true ↔
    (∃ bubble, a.Owns bubble ∧ b.Owns bubble) ∨ a.LiesInside b ∨ b.LiesInside a := by
  constructor
  · intro h
    obtain ⟨hab, hba⟩ := overlaps_eq_true_iff.1 h
    rcases Nat.eq_zero_or_pos a.pins.length with ha | ha
    · refine .inr (.inl ⟨List.length_eq_zero_iff.1 ha, ?_, hab⟩)
      rwa [endBubble, ha, Nat.add_zero] at hba
    · rcases Nat.eq_zero_or_pos b.pins.length with hb | hb
      · refine .inr (.inr ⟨List.length_eq_zero_iff.1 hb, ?_, hba⟩)
        rwa [endBubble, hb, Nat.add_zero] at hab
      · exact .inl (exists_owns_of_lt hab hba (Nat.lt_add_of_pos_right ha)
          (Nat.lt_add_of_pos_right hb))
  · rintro (⟨bubble, ha, hb⟩ | ⟨hempty, hfirst, hend⟩ | ⟨hempty, hfirst, hend⟩)
    · exact overlaps_of_owns ha hb
    · exact overlaps_eq_true_iff.2 ⟨hend, Nat.lt_of_lt_of_le hfirst (Nat.le_add_right _ _)⟩
    · exact overlaps_eq_true_iff.2 ⟨Nat.lt_of_lt_of_le hfirst (Nat.le_add_right _ _), hend⟩

/-- **A resource is accepted by itself** if its bubbles have numbers and no pin is both open and
mapped. -/
lemma check_eq_ok_iff : r.check = .ok () ↔
    r.endBubble < UInt32.size ∧ ∀ pin ∈ r.pins, ¬ (pin.isOpen = true ∧ pin.name.isSome = true) := by
  rw [check, bubbles?]
  by_cases hend : r.endBubble < UInt32.size
  · rw [if_pos hend]
    cases hfind : r.pins.findIdx? fun p => p.isOpen && p.name.isSome with
    | none =>
        rw [List.findIdx?_eq_none_iff] at hfind
        simpa [hend] using hfind
    | some index =>
        refine iff_of_false (by simp) fun h => ?_
        obtain ⟨hindex, hpin, -⟩ := List.findIdx?_eq_some_iff_getElem.1 hfind
        exact h.2 _ (List.getElem_mem hindex) (by simpa using hpin)
  · rw [if_neg hend]
    exact iff_of_false (by simp) fun h => hend h.1

end Resource

/-! ## Lists of resources -/

variable {resources : List Resource}

/-- **Resources are accepted together** if no two runs overlap. -/
theorem checkApart_eq_ok_iff :
    checkApart resources = .ok () ↔ resources.Pairwise fun a b => a.overlaps b = false := by
  induction resources with
  | nil => simp [checkApart]
  | cons r rest ih =>
      rw [checkApart, List.pairwise_cons, ← ih]
      cases hfind : rest.find? r.overlaps with
      | none =>
          rw [List.find?_eq_none] at hfind
          exact (and_iff_right fun b hb => Bool.not_eq_true _ ▸ hfind b hb).symm
      | some other =>
          refine iff_of_false (by simp) fun h => ?_
          cases (h.1 other (List.mem_of_find?_eq_some hfind)).symm.trans (List.find?_some hfind)

/-- Resources are refused together for nothing but an overlap. -/
lemma exists_overlapping_of_checkApart {cause : ProjectError}
    (h : checkApart resources = .error cause) : ∃ first second, cause = .overlapping first second := by
  induction resources with
  | nil => cases h
  | cons r rest ih =>
      rw [checkApart] at h
      split at h
      · exact ⟨_, _, (Except.error.inj h).symm⟩
      · exact ih h

lemma checkApart_eq_overlapping_iff :
    (∃ first second, checkApart resources = .error (.overlapping first second))
      ↔ ¬ resources.Pairwise fun a b => a.overlaps b = false := by
  rw [← checkApart_eq_ok_iff]
  constructor
  · rintro ⟨first, second, h⟩
    simp [h]
  · intro h
    cases hcheck : checkApart resources with
    | ok _ => exact absurd hcheck h
    | error cause =>
        obtain ⟨first, second, rfl⟩ := exists_overlapping_of_checkApart hcheck
        exact ⟨first, second, rfl⟩

/-- Of two different places in a list with an overlap, one comes first. -/
lemma not_pairwise_overlaps_iff : (¬ resources.Pairwise fun a b => a.overlaps b = false) ↔
    ∃ (i j : ℕ) (a b : Resource), i ≠ j ∧ resources[i]? = some a ∧ resources[j]? = some b
      ∧ a.overlaps b = true := by
  rw [List.pairwise_iff_getElem]
  constructor
  · intro h
    push Not at h
    obtain ⟨i, j, hi, hj, hij, hoverlap⟩ := h
    exact ⟨i, j, _, _, Nat.ne_of_lt hij, List.getElem?_eq_getElem hi, List.getElem?_eq_getElem hj,
      Bool.not_eq_false _ ▸ hoverlap⟩
  · rintro ⟨i, j, a, b, hij, ha, hb, hoverlap⟩ h
    obtain ⟨hi, rfl⟩ := List.getElem?_eq_some_iff.1 ha
    obtain ⟨hj, rfl⟩ := List.getElem?_eq_some_iff.1 hb
    rcases Nat.lt_or_gt_of_ne hij with hlt | hgt
    · cases (h i j hi hj hlt).symm.trans hoverlap
    · cases (h j i hj hi hgt).symm.trans (Resource.overlaps_comm.trans hoverlap)

end Board

/-! ## Projects -/

namespace Project

variable {p : Project}

lemma checkField_eq_ok_iff {field value : String} :
    checkField field value = .ok () ↔ value ≠ "" := by
  rw [checkField]
  split
  · next h => exact iff_of_false (by simp) (not_not_intro (String.isEmpty_iff.1 h))
  · next h => exact iff_of_true rfl fun hempty => h (String.isEmpty_iff.2 hempty)

/-- **Which projects are accepted.** -/
theorem check_eq_ok_iff : p.check = .ok () ↔
    (p.name ≠ "" ∧ p.top ≠ "" ∧ p.outputDirectory ≠ "")
    ∧ (∀ r ∈ p.board.resources, r.check = .ok ())
    ∧ p.board.resources.Pairwise fun a b => a.overlaps b = false := by
  rw [check, bind_eq_ok_iff, bind_eq_ok_iff, bind_eq_ok_iff, Board.check, bind_eq_ok_iff,
    checkField_eq_ok_iff, checkField_eq_ok_iff, checkField_eq_ok_iff, forM_eq_ok_iff,
    Board.checkApart_eq_ok_iff]
  simp only [and_assoc]

/-- Where all that is checked before is in order, the resources are compared. -/
lemma check_eq_checkApart (hname : p.name ≠ "") (htop : p.top ≠ "")
    (houtput : p.outputDirectory ≠ "") (halone : ∀ r ∈ p.board.resources, r.check = .ok ()) :
    p.check = Board.checkApart p.board.resources := by
  rw [check, checkField_eq_ok_iff.2 hname, checkField_eq_ok_iff.2 htop,
    checkField_eq_ok_iff.2 houtput, Board.check, forM_eq_ok_iff.2 halone]
  rfl

/-- **Which projects are refused for an overlap**, of those whose fields are given, whose bubbles have
numbers and whose pins are not both open and mapped: the ones in which two resources own a bubble, or
in which a resource without pins lies inside another one. -/
theorem check_overlapping_iff (hname : p.name ≠ "") (htop : p.top ≠ "")
    (houtput : p.outputDirectory ≠ "")
    (hbubbles : ∀ r ∈ p.board.resources, r.endBubble < UInt32.size)
    (hpins : ∀ r ∈ p.board.resources, ∀ pin ∈ r.pins,
      ¬ (pin.isOpen = true ∧ pin.name.isSome = true)) :
    (∃ first second, p.check = .error (.overlapping first second)) ↔
      ∃ (i j : ℕ) (a b : Board.Resource), i ≠ j
        ∧ p.board.resources[i]? = some a ∧ p.board.resources[j]? = some b
        ∧ ((∃ bubble, a.Owns bubble ∧ b.Owns bubble) ∨ a.LiesInside b) := by
  have halone : ∀ r ∈ p.board.resources, r.check = .ok () := fun r hr =>
    Board.Resource.check_eq_ok_iff.2 ⟨hbubbles r hr, hpins r hr⟩
  rw [check_eq_checkApart hname htop houtput halone, Board.checkApart_eq_overlapping_iff,
    Board.not_pairwise_overlaps_iff]
  constructor
  · rintro ⟨i, j, a, b, hij, ha, hb, hoverlap⟩
    rcases Board.Resource.overlaps_iff.1 hoverlap with hshared | hinside | hinside
    · exact ⟨i, j, a, b, hij, ha, hb, .inl hshared⟩
    · exact ⟨i, j, a, b, hij, ha, hb, .inr hinside⟩
    · exact ⟨j, i, b, a, hij.symm, hb, ha, .inr hinside⟩
  · rintro ⟨i, j, a, b, hij, ha, hb, hshared | hinside⟩
    · exact ⟨i, j, a, b, hij, ha, hb, Board.Resource.overlaps_iff.2 (.inl hshared)⟩
    · exact ⟨i, j, a, b, hij, ha, hb, Board.Resource.overlaps_iff.2 (.inr (.inl hinside))⟩

/-- A resource with two pins, and one without any before the second of them. -/
def besideNothing : Project where
  name := "p"
  top := "main"
  board := ⟨[
    { name := "A", pins := [{ name := some "a0" }, { name := some "a1" }] },
    { name := "B", firstBubble := 1 }]⟩

/-- A project is refused for an overlap with a resource that owns nothing. -/
theorem check_overlapping_iff_besideNothing :
    (besideNothing.name ≠ "" ∧ besideNothing.top ≠ "" ∧ besideNothing.outputDirectory ≠ "")
    ∧ (∀ r ∈ besideNothing.board.resources, r.endBubble < UInt32.size)
    ∧ (∀ r ∈ besideNothing.board.resources, ∀ pin ∈ r.pins,
      ¬ (pin.isOpen = true ∧ pin.name.isSome = true))
    ∧ (∃ first second, besideNothing.check = .error (.overlapping first second))
    ∧ ∀ b, besideNothing.board.resources[1]? = some b → ∀ bubble, ¬ b.Owns bubble := by
  have hbubbles : ∀ r ∈ besideNothing.board.resources, r.endBubble < UInt32.size := by decide
  have hpins : ∀ r ∈ besideNothing.board.resources, ∀ pin ∈ r.pins,
      ¬ (pin.isOpen = true ∧ pin.name.isSome = true) := by decide
  have hinside : Board.Resource.LiesInside { name := "B", firstBubble := 1 }
      { name := "A", pins := [{ name := some "a0" }, { name := some "a1" }] } :=
    ⟨rfl, by decide, by decide⟩
  refine ⟨⟨by decide, by decide, by decide⟩, hbubbles, hpins, ?_, ?_⟩
  · exact (check_overlapping_iff (p := besideNothing) (by decide) (by decide) (by decide) hbubbles
      hpins).2 ⟨1, 0, _, _, by decide, rfl, rfl, .inr hinside⟩
  · rintro b hb bubble
    obtain rfl := Option.some.inj hb
    exact hinside.not_owns bubble

end Project

end Netscribe
