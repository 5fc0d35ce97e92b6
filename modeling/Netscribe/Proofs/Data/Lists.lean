import Mathlib.Data.List.Forall2
import Mathlib.Data.List.Induction
import Mathlib.Data.List.Nodup
import Mathlib.Data.List.Perm.Subperm
import Mathlib.Order.Bounds.Basic
import Mathlib.Tactic.Common

/-!
# Lists

Facts about lists that no single part of the library owns.

* `mapM_eq_some_iff`, `exists_map_some`, `filterMap_of_map_some` — a list of optional values that are
  all there.
* `mapM_congr` — steps that do the same along a list.
* `flatMap_filter_of_nil` — entries that have no part.
* `exists_getElem?_of_forall₂`, `exists_mem_of_forall₂`, `exists_forall₂_iff` — two lists entry by
  entry.
* `findIdx?_eq_some_iff_isLeast` — the place that a search finds.
* `findSome?_eq_some_iff_of_pairwise`, `findSome?_perm` — a search that finds one entry at most.
* `takeWhile_append_of_boundary`, `dropWhile_append_of_boundary`, `append_inj_of_boundary` — a list
  that splits where a property ends.
* `eq_of_count_map` — an image that is counted once.
* `length_le_of_nodup_of_lt` — different words below a number.
* `eraseDups_concat`, `eraseDups_append_of_subset`, `nodup_eraseDups`, `eraseDups_map` — a list
  without repetitions, seen from its end.
-/

namespace Netscribe

variable {α β : Type}

/-- A partial function gives a value for every entry exactly when those are the values. -/
lemma mapM_eq_some_iff {f : α → Option β} {xs : List α} {ys : List β} :
    xs.mapM f = some ys ↔ xs.map f = ys.map some := by
  induction xs generalizing ys with
  | nil => cases ys <;> simp
  | cons x xs ih =>
      cases ys with
      | nil => simp [Option.bind_eq_some_iff]
      | cons y ys =>
          simp [Option.bind_eq_some_iff, ih]

/-- Two steps that do the same at every entry of a list do the same along it. -/
lemma mapM_congr {m : Type → Type} [Monad m] [LawfulMonad m] {f g : α → m β} {xs : List α}
    (h : ∀ x ∈ xs, f x = g x) : xs.mapM f = xs.mapM g := by
  induction xs with
  | nil => rfl
  | cons x xs ih =>
      rw [List.mapM_cons, List.mapM_cons, h x List.mem_cons_self,
        ih fun y hy => h y (List.mem_cons_of_mem _ hy)]

/-- A partial function that has a value for every entry has a list of them. -/
lemma exists_map_some (f : α → Option β) {xs : List α} (h : ∀ x ∈ xs, ∃ y, f x = some y) :
    ∃ ys : List β, xs.map f = ys.map some := by
  induction xs with
  | nil => exact ⟨[], rfl⟩
  | cons x xs ih =>
      obtain ⟨y, hy⟩ := h x (by simp)
      obtain ⟨ys, hys⟩ := ih fun z hz => h z (by simp [hz])
      exact ⟨y :: ys, by simp [hy, hys]⟩

lemma filterMap_of_map_some {f : α → Option β} {xs : List α} {ys : List β}
    (h : xs.map f = ys.map some) : xs.filterMap f = ys := by
  have hid : (xs.map f).filterMap id = (ys.map some).filterMap id := by rw [h]
  simpa [List.filterMap_map] using hid

/-! ## Lists entry by entry -/

/-- Entries without any part can be left out. -/
lemma flatMap_filter_of_nil {f : α → List β} {p : α → Bool} {xs : List α}
    (h : ∀ x ∈ xs, p x = false → f x = []) : (xs.filter p).flatMap f = xs.flatMap f := by
  induction xs with
  | nil => rfl
  | cons x xs ih =>
      have hxs := ih fun y hy => h y (List.mem_cons_of_mem _ hy)
      cases hx : p x with
      | false => simp [hx, hxs, h x List.mem_cons_self hx]
      | true => simp [hx, hxs]

/-- An entry of one list has a partner at the same place of the other. -/
lemma exists_getElem?_of_forall₂ {R : α → β → Prop} {xs : List α} {ys : List β}
    (h : List.Forall₂ R xs ys) {i : ℕ} {x : α} (hx : xs[i]? = some x) :
    ∃ y, ys[i]? = some y ∧ R x y := by
  induction h generalizing i with
  | nil => cases hx
  | cons hR _ ih =>
      cases i with
      | zero =>
          obtain rfl := Option.some.inj hx
          exact ⟨_, rfl, hR⟩
      | succ i => exact ih hx

/-- An entry of the other list has a partner in this one. -/
lemma exists_mem_of_forall₂ {R : α → β → Prop} {xs : List α} {ys : List β}
    (h : List.Forall₂ R xs ys) {y : β} (hy : y ∈ ys) : ∃ x ∈ xs, R x y := by
  induction h with
  | nil => cases hy
  | cons hR _ ih =>
      rcases List.mem_cons.1 hy with rfl | hy
      · exact ⟨_, List.mem_cons_self, hR⟩
      · obtain ⟨x, hx, hxy⟩ := ih hy
        exact ⟨x, List.mem_cons_of_mem _ hx, hxy⟩

lemma map_eq_map_of_forall₂ {γ : Type} {f : α → γ} {g : β → γ} {xs : List α} {ys : List β}
    (h : List.Forall₂ (fun x y => f x = g y) xs ys) : xs.map f = ys.map g := by
  rw [← List.forall₂_eq_eq_eq]
  exact List.forall₂_map_left_iff.2 (List.forall₂_map_right_iff.2 h)

/-- A list can be matched entry by entry if each of its entries can. -/
lemma exists_forall₂_iff {R : α → β → Prop} {xs : List α} :
    (∃ ys, List.Forall₂ R xs ys) ↔ ∀ x ∈ xs, ∃ y, R x y := by
  induction xs with
  | nil => simp
  | cons x xs ih =>
      simp only [List.forall₂_cons_left_iff, List.forall_mem_cons, ← ih]
      constructor
      · rintro ⟨_, y, ys, hy, hys, rfl⟩
        exact ⟨⟨y, hy⟩, ys, hys⟩
      · rintro ⟨⟨y, hy⟩, ys, hys⟩
        exact ⟨_, y, ys, hy, hys, rfl⟩

/-- An entry is the only one with its image, if that is counted once. -/
lemma eq_of_count_map {γ : Type} [DecidableEq γ] {f : α → γ} {xs : List α} {x y : α}
    (hone : (xs.map f).count (f x) = 1) (hx : x ∈ xs) (hy : y ∈ xs) (hsame : f y = f x) : y = x := by
  rw [List.count_eq_countP, List.countP_map, List.countP_eq_length_filter,
    List.length_eq_one_iff] at hone
  obtain ⟨z, hz⟩ := hone
  have hmem : ∀ w ∈ xs, f w = f x → w = z := fun w hw hwx =>
    List.mem_singleton.1 (hz ▸ List.mem_filter.2 ⟨hw, by simp [hwx]⟩)
  rw [hmem x hx rfl, hmem y hy hsame]

lemma exists_getLast?_of_forall₂ {R : α → β → Prop} {xs : List α} {ys : List β}
    (h : List.Forall₂ R xs ys) {x : α} (hx : xs.getLast? = some x) :
    ∃ y, ys.getLast? = some y ∧ R x y := by
  rw [List.getLast?_eq_getElem?] at hx ⊢
  rw [← h.length_eq]
  exact exists_getElem?_of_forall₂ h hx

/-! ## Searches -/

/-- The place that a search finds is the least one of those that count. -/
lemma findIdx?_eq_some_iff_isLeast {p : α → Bool} {xs : List α} {i : ℕ} :
    xs.findIdx? p = some i ↔ IsLeast {j | ∃ x, xs[j]? = some x ∧ p x = true} i := by
  rw [List.findIdx?_eq_some_iff_getElem]
  constructor
  · rintro ⟨hi, hp, hbefore⟩
    refine ⟨⟨xs[i], List.getElem?_eq_getElem hi, hp⟩, ?_⟩
    rintro j ⟨x, hj, hx⟩
    obtain ⟨hlt, rfl⟩ := List.getElem?_eq_some_iff.1 hj
    exact Nat.not_lt.1 fun hji => hbefore j hji hx
  · rintro ⟨⟨x, hi, hx⟩, hleast⟩
    obtain ⟨hlt, rfl⟩ := List.getElem?_eq_some_iff.1 hi
    refine ⟨hlt, hx, fun j hji hj => ?_⟩
    have hle : i ≤ j := hleast ⟨xs[j], List.getElem?_eq_getElem (by omega), hj⟩
    omega

/-- A search for which at most one entry counts finds that one, wherever it stands. -/
lemma findSome?_eq_some_iff_of_pairwise {f : α → Option β} {xs : List α} {y : β}
    (h : xs.Pairwise fun a b => f a = none ∨ f b = none) :
    xs.findSome? f = some y ↔ ∃ x ∈ xs, f x = some y := by
  induction xs with
  | nil => simp
  | cons x xs ih =>
      obtain ⟨hx, hxs⟩ := List.pairwise_cons.1 h
      cases hfx : f x with
      | none => simp [hfx, ih hxs]
      | some z =>
          have hrest : ∀ a ∈ xs, f a = none := fun a ha => (hx a ha).resolve_left (by simp [hfx])
          rw [List.findSome?_cons, hfx, List.exists_mem_cons_iff, hfx]
          exact (or_iff_left fun ⟨a, ha, hy⟩ => by simp [hrest a ha] at hy).symm

/-- The order of the entries does not matter to such a search. -/
lemma findSome?_perm {f : α → Option β} {xs ys : List α}
    (h : xs.Pairwise fun a b => f a = none ∨ f b = none) (hperm : xs.Perm ys) :
    xs.findSome? f = ys.findSome? f := by
  have hys := (hperm.pairwise_iff fun hab => hab.symm).1 h
  refine Option.ext fun y => ?_
  rw [findSome?_eq_some_iff_of_pairwise h, findSome?_eq_some_iff_of_pairwise hys]
  simp only [hperm.mem_iff]

/-! ## Lists that split where a property ends -/

lemma takeWhile_append_of_boundary {p : α → Bool} {xs rest : List α} (hxs : ∀ x ∈ xs, p x = true)
    (hrest : ∀ x ∈ rest.head?, p x = false) : (xs ++ rest).takeWhile p = xs := by
  rw [List.takeWhile_append_of_pos hxs]
  cases rest with
  | nil => rw [List.takeWhile_nil, List.append_nil]
  | cons x rest =>
      rw [List.takeWhile_cons_of_neg (by simp [hrest x rfl]), List.append_nil]

lemma dropWhile_append_of_boundary {p : α → Bool} {xs rest : List α} (hxs : ∀ x ∈ xs, p x = true)
    (hrest : ∀ x ∈ rest.head?, p x = false) : (xs ++ rest).dropWhile p = rest := by
  have hsplit := List.takeWhile_append_dropWhile (p := p) (l := xs ++ rest)
  rw [takeWhile_append_of_boundary hxs hrest] at hsplit
  exact List.append_cancel_left hsplit

/-- There is one way only to split a list into entries that have a property and a rest that does not
start with one that has it. -/
lemma append_inj_of_boundary {p : α → Bool} {xs ys rest rest' : List α}
    (hxs : ∀ x ∈ xs, p x = true) (hys : ∀ y ∈ ys, p y = true)
    (hrest : ∀ x ∈ rest.head?, p x = false) (hrest' : ∀ x ∈ rest'.head?, p x = false)
    (h : xs ++ rest = ys ++ rest') : xs = ys ∧ rest = rest' := by
  have htake : xs = ys := by
    have htake := congrArg (List.takeWhile p) h
    rwa [takeWhile_append_of_boundary hxs hrest, takeWhile_append_of_boundary hys hrest'] at htake
  subst htake
  exact ⟨rfl, List.append_cancel_left h⟩

/-! ## Lists without repetitions -/

/-- Different words below a number are no more than that many. -/
lemma length_le_of_nodup_of_lt {ids : List UInt32} {n : ℕ} (hnodup : ids.Nodup)
    (h : ∀ id ∈ ids, id.toNat < n) : ids.length ≤ n := by
  have hmap : (ids.map UInt32.toNat).Nodup := hnodup.map fun a b hab => UInt32.toNat_inj.1 hab
  have hsub : ids.map UInt32.toNat ⊆ List.range n := by
    intro i hi
    obtain ⟨id, hid, rfl⟩ := List.mem_map.1 hi
    exact List.mem_range.2 (h id hid)
  simpa using (List.subperm_of_subset hmap hsub).length_le

variable [BEq α] [LawfulBEq α] [BEq β] [LawfulBEq β]

lemma eraseDups_concat (xs : List α) (x : α) :
    (xs ++ [x]).eraseDups = if x ∈ xs then xs.eraseDups else xs.eraseDups ++ [x] := by
  rw [List.eraseDups_append]
  by_cases hx : x ∈ xs <;> simp [List.removeAll, List.eraseDups_cons, hx]

lemma eraseDups_append_of_subset {xs ys : List α} (h : ys ⊆ xs) :
    (xs ++ ys).eraseDups = xs.eraseDups := by
  have hnone : ys.removeAll xs = [] := by
    rw [List.removeAll, List.filter_eq_nil_iff]
    intro y hy
    simpa using h hy
  rw [List.eraseDups_append, hnone, List.eraseDups_nil, List.append_nil]

lemma nodup_eraseDups (xs : List α) : xs.eraseDups.Nodup := by
  induction xs using List.reverseRecOn with
  | nil => exact List.nodup_nil
  | append_singleton xs x ih =>
      rw [eraseDups_concat]
      split
      · exact ih
      · next hx => simpa using ih.concat (by simpa using hx)

/-- A function that tells entries apart may be applied before or after. -/
lemma eraseDups_map {f : α → β} {xs : List α} (h : ∀ x ∈ xs, ∀ y ∈ xs, f x = f y → x = y) :
    (xs.map f).eraseDups = xs.eraseDups.map f := by
  induction xs using List.reverseRecOn with
  | nil => rfl
  | append_singleton xs x ih =>
      have hmem : f x ∈ xs.map f ↔ x ∈ xs := by
        refine ⟨fun hx => ?_, List.mem_map_of_mem⟩
        obtain ⟨y, hy, hyx⟩ := List.mem_map.1 hx
        rwa [← h y (by simp [hy]) x (by simp) hyx]
      have ih := ih fun y hy z hz => h y (by simp [hy]) z (by simp [hz])
      rw [List.map_append, List.map_singleton, eraseDups_concat, eraseDups_concat, ih]
      by_cases hx : x ∈ xs <;> simp [hx, hmem]

end Netscribe
