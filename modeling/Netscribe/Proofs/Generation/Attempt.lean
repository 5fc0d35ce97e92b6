import Netscribe.Generation.Attempt
import Netscribe.Proofs.Data.Lists

/-!
# Attempts that succeed

An attempt made of parts succeeds exactly if its parts do, one after the other.

* `Attempt.outcome_pure`, `Attempt.outcome_bind_eq_ok_iff` — the value of an attempt in parts.
* `Attempt.outcome_mapM_eq_ok_iff` — the values of an attempt at each entry of a list.
* `Attempt.outcome_orFail_eq_ok_iff` — the value of an attempt that may find none.
* `Attempt.Succeeds` — the same without the values.
* `Attempt.FailsOnly` — an attempt that can fail with faults of some kind only.
* `Attempt.warnings_bind`, `Attempt.warnings_mapM_eq_nil` — what an attempt in parts warns of.
* `Attempt.exists_mapM_split` — an attempt at each entry of a list, up to the first that fails.
* `Attempt.Alike` — two attempts that come to the same and differ in what they warn of.
-/

namespace Netscribe.Attempt

variable {α β : Type}

@[simp] lemma outcome_pure (a : α) : (pure a : Attempt α).outcome = .ok a := rfl

/-- **An attempt in two parts succeeds exactly if both do.** -/
lemma outcome_bind_eq_ok_iff {x : Attempt α} {f : α → Attempt β} {b : β} :
    (x >>= f).outcome = .ok b ↔ ∃ a, x.outcome = .ok a ∧ (f a).outcome = .ok b := by
  show (x.andThen f).outcome = .ok b ↔ _
  rw [andThen]
  cases hx : x.outcome with
  | error fault => simp
  | ok a => simp

instance : LawfulMonad Attempt :=
  LawfulMonad.mk' Attempt
    (fun x => by
      show x.andThen (fun a => succeed a) = x
      obtain ⟨warnings, outcome⟩ := x
      cases outcome <;> simp [andThen, succeed])
    (fun a f => by
      show (succeed a).andThen f = f a
      simp [andThen, succeed])
    (fun x f g => by
      show (x.andThen f).andThen g = x.andThen fun a => (f a).andThen g
      obtain ⟨warnings, outcome⟩ := x
      cases outcome with
      | error fault => rfl
      | ok a =>
          cases h : (f a).outcome <;> simp [andThen, h])

@[simp] lemma outcome_map_eq_ok_iff {f : α → β} {x : Attempt α} {b : β} :
    (f <$> x).outcome = .ok b ↔ ∃ a, x.outcome = .ok a ∧ f a = b := by
  rw [map_eq_pure_bind, outcome_bind_eq_ok_iff]
  simp

@[simp] lemma outcome_orFail_eq_ok_iff {fault : Fault} {value : Option α} {a : α} :
    (orFail fault value).outcome = .ok a ↔ value = some a := by
  cases value <;> simp [orFail, fail, succeed]

/-- **An attempt at each entry of a list succeeds exactly if all of them do**, with their values. -/
lemma outcome_mapM_eq_ok_iff {f : α → Attempt β} {xs : List α} {ys : List β} :
    (xs.mapM f).outcome = .ok ys ↔ List.Forall₂ (fun x y => (f x).outcome = .ok y) xs ys := by
  induction xs generalizing ys with
  | nil => simp [eq_comm]
  | cons x xs ih =>
      simp only [List.mapM_cons, outcome_bind_eq_ok_iff, outcome_pure, Except.ok.injEq, ih,
        List.forall₂_cons_left_iff]
      constructor
      · rintro ⟨y, hy, ys', hys, rfl⟩
        exact ⟨y, ys', hy, hys, rfl⟩
      · rintro ⟨y, ys', hy, hys, rfl⟩
        exact ⟨y, hy, ys', hys, rfl⟩

/-! ## Success alone -/

/-- An attempt that gives a value. -/
def Succeeds (x : Attempt α) : Prop :=
  ∃ a, x.outcome = .ok a

@[simp] lemma succeeds_map_iff {x : Attempt α} {f : α → β} : (f <$> x).Succeeds ↔ x.Succeeds := by
  simp [Succeeds]

/-- An attempt at each entry of a list succeeds if it does at each of them. -/
lemma succeeds_mapM_iff {f : α → Attempt β} {xs : List α} :
    (xs.mapM f).Succeeds ↔ ∀ x ∈ xs, (f x).Succeeds := by
  simp only [Succeeds, outcome_mapM_eq_ok_iff, exists_forall₂_iff]

/-! ## Faults -/

/-- **An attempt that fails, if at all, with a fault of some kind.** -/
def FailsOnly (x : Attempt α) (kind : Fault → Prop) : Prop :=
  ∀ fault, x.outcome = .error fault → kind fault

variable {kind kind' : Fault → Prop}

lemma FailsOnly.mono {x : Attempt α} (h : x.FailsOnly kind) (hkind : ∀ fault, kind fault → kind' fault) :
    x.FailsOnly kind' :=
  fun fault hfault => hkind fault (h fault hfault)

lemma FailsOnly.of_succeeds {x : Attempt α} (h : x.Succeeds) : x.FailsOnly kind := by
  obtain ⟨a, ha⟩ := h
  intro fault hfault
  cases ha.symm.trans hfault

lemma failsOnly_pure (a : α) : (pure a : Attempt α).FailsOnly kind :=
  .of_succeeds ⟨a, rfl⟩

lemma failsOnly_fail {fault : Fault} (h : kind fault) : (fail fault : Attempt α).FailsOnly kind := by
  rintro _ ⟨⟩
  exact h

/-- An attempt in two parts fails as the first does, or as the second where the first succeeds. -/
lemma FailsOnly.bind {x : Attempt α} {f : α → Attempt β} (hx : x.FailsOnly kind)
    (hf : ∀ a, x.outcome = .ok a → (f a).FailsOnly kind) : (x >>= f).FailsOnly kind := by
  intro fault h
  change (x.andThen f).outcome = .error fault at h
  rw [andThen] at h
  split at h
  · next ha =>
      obtain rfl := Except.error.inj h
      exact hx _ ha
  · next a ha => exact hf a ha fault h

lemma failsOnly_orFail {fault : Fault} {value : Option α} (h : value = none → kind fault) :
    (orFail fault value).FailsOnly kind := by
  cases value with
  | none => exact failsOnly_fail (h rfl)
  | some a => exact failsOnly_pure a

/-- An attempt at each entry of a list fails as one of them does. -/
lemma failsOnly_mapM {f : α → Attempt β} {xs : List α} (h : ∀ x ∈ xs, (f x).FailsOnly kind) :
    (xs.mapM f).FailsOnly kind := by
  induction xs with
  | nil => exact failsOnly_pure []
  | cons x xs ih =>
      rw [List.mapM_cons]
      have hxs := ih fun y hy => h y (List.mem_cons_of_mem _ hy)
      exact (h x List.mem_cons_self).bind fun _ _ => hxs.bind fun _ _ => failsOnly_pure _

/-! ## Warnings -/

/-- Two parts warn one after the other. -/
lemma warnings_bind {x : Attempt α} {f : α → Attempt β} {a : α} (h : x.outcome = .ok a) :
    (x >>= f).warnings = x.warnings ++ (f a).warnings := by
  show (x.andThen f).warnings = _
  rw [andThen, h]

lemma warnings_bind_eq_nil {x : Attempt α} {f : α → Attempt β} (hx : x.warnings = [])
    (hf : ∀ a, (f a).warnings = []) : (x >>= f).warnings = [] := by
  cases h : x.outcome with
  | error fault =>
      show (x.andThen f).warnings = []
      rw [andThen, h]
      exact hx
  | ok a => rw [warnings_bind h, hx, hf, List.nil_append]

lemma warnings_orFail (fault : Fault) (value : Option α) : (orFail fault value).warnings = [] := by
  cases value <;> rfl

/-- An attempt at each entry of a list warns of nothing if none of them does. -/
lemma warnings_mapM_eq_nil {f : α → Attempt β} (xs : List α) (h : ∀ x, (f x).warnings = []) :
    (xs.mapM f).warnings = [] := by
  induction xs with
  | nil => rfl
  | cons x xs ih =>
      rw [List.mapM_cons]
      exact warnings_bind_eq_nil (h x) fun _ => warnings_bind_eq_nil ih fun _ => rfl

/-! ## Up to the first fault -/

lemma bind_of_ok {x : Attempt α} {f : α → Attempt β} {a : α} (h : x.outcome = .ok a) :
    x >>= f = ⟨x.warnings ++ (f a).warnings, (f a).outcome⟩ := by
  show x.andThen f = _
  rw [andThen, h]

lemma bind_of_error {x : Attempt α} {f : α → Attempt β} {fault : Fault}
    (h : x.outcome = .error fault) : x >>= f = ⟨x.warnings, .error fault⟩ := by
  show x.andThen f = _
  rw [andThen, h]

/-- **An attempt at each entry of a list goes on up to the first that fails.**  It warns of what they
warn of, and ends with the fault of that one or with the values of all. -/
lemma exists_mapM_split (f : α → Attempt β) (xs : List α) :
    ∃ done rest ys, xs = done ++ rest
      ∧ List.Forall₂ (fun x y => (f x).outcome = .ok y) done ys
      ∧ match rest with
        | [] => xs.mapM f = ⟨done.flatMap fun x => (f x).warnings, .ok ys⟩
        | x :: _ => ∃ fault, (f x).outcome = .error fault
            ∧ xs.mapM f = ⟨done.flatMap (fun x => (f x).warnings) ++ (f x).warnings, .error fault⟩ := by
  induction xs with
  | nil => exact ⟨[], [], [], rfl, .nil, rfl⟩
  | cons x xs ih =>
      rw [List.mapM_cons]
      cases hx : (f x).outcome with
      | error fault => exact ⟨[], x :: xs, [], rfl, .nil, fault, hx, bind_of_error hx⟩
      | ok y =>
          obtain ⟨done, rest, ys, rfl, hdone, hrest⟩ := ih
          refine ⟨x :: done, rest, y :: ys, rfl, .cons hx hdone, ?_⟩
          cases rest with
          | nil =>
              rw [bind_of_ok hx, hrest, bind_of_ok rfl]
              simp [pure, succeed]
          | cons x' rest =>
              obtain ⟨fault, hfault, hmapM⟩ := hrest
              refine ⟨fault, hfault, ?_⟩
              rw [bind_of_ok hx, hmapM, bind_of_error rfl]
              simp

/-! ## Attempts that differ in their warnings -/

variable {related : Warning → Warning → Prop}

/-- **Two attempts that come to the same**, and whose warnings are related one by one. -/
structure Alike (related : Warning → Warning → Prop) (x y : Attempt α) : Prop where
  outcome : x.outcome = y.outcome
  warnings : List.Forall₂ related x.warnings y.warnings

lemma Alike.refl (hrefl : ∀ w, related w w) (x : Attempt α) : x.Alike related x :=
  ⟨rfl, List.forall₂_same.2 fun w _ => hrefl w⟩

lemma Alike.bind {x y : Attempt α} {f g : α → Attempt β} (h : x.Alike related y)
    (hfg : ∀ a, (f a).Alike related (g a)) : (x >>= f).Alike related (y >>= g) := by
  cases hx : x.outcome with
  | error fault =>
      rw [bind_of_error hx, bind_of_error (h.outcome ▸ hx)]
      exact ⟨rfl, h.warnings⟩
  | ok a =>
      rw [bind_of_ok hx, bind_of_ok (h.outcome ▸ hx)]
      exact ⟨(hfg a).outcome, List.rel_append h.warnings (hfg a).warnings⟩

lemma Alike.mapM {f g : α → Attempt β} (hrefl : ∀ w, related w w)
    (h : ∀ x, (f x).Alike related (g x)) (xs : List α) :
    (xs.mapM f).Alike related (xs.mapM g) := by
  induction xs with
  | nil => exact .refl hrefl _
  | cons x xs ih =>
      rw [List.mapM_cons, List.mapM_cons]
      exact (h x).bind fun _ => ih.bind fun _ => .refl hrefl _

end Netscribe.Attempt
