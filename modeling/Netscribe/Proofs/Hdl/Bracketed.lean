import Mathlib.Data.List.Basic
import Netscribe.Hdl.Port

/-!
# Lists over several lines

A list is laid out with one entry to a line.  A line has the text of its entry between a lead and an
end, and which lead and which end these are is told by the place of the entry.

* `Dialect.bracketed_eq_mapIdx` — the lines, each by its place.
* `Dialect.bracketed_map` — entries that are written alike.
* `Dialect.exists_of_mem_bracketed` — what any of the lines is made of.
* `Dialect.mapIdx_bracketed` — a reader for the lines reads the whole list.
-/

namespace Netscribe.Dialect

variable {α β : Type} {first later between last : String} {text : α → String} {xs : List α}

/-- **A list over several lines**, each line by its place. -/
lemma bracketed_eq_mapIdx (first later between last : String) (text : α → String) (xs : List α) :
    bracketed first later between last text xs
      = xs.mapIdx fun i x => (if i = 0 then first else later) ++ text x
          ++ (if i + 1 = xs.length then last else between) := by
  induction xs generalizing first with
  | nil => rfl
  | cons x xs ih =>
      cases xs with
      | nil => rfl
      | cons y ys =>
          rw [bracketed, ih, List.mapIdx_cons]
          · simp [@eq_comm _ 0]
          · exact List.cons_ne_nil y ys

@[simp] lemma length_bracketed :
    (bracketed first later between last text xs).length = xs.length := by
  rw [bracketed_eq_mapIdx, List.length_mapIdx]

/-- Entries that are written alike are laid out alike. -/
lemma bracketed_map {f : α → α} (h : ∀ x, text (f x) = text x) :
    bracketed first later between last text (xs.map f)
      = bracketed first later between last text xs := by
  rw [bracketed_eq_mapIdx, bracketed_eq_mapIdx]
  exact List.ext_getElem (by simp) fun i _ _ => by simp [h]

/-- A line has one of the leads, the text of an entry, and one of the ends. -/
lemma exists_of_mem_bracketed {line : String}
    (h : line ∈ bracketed first later between last text xs) :
    ∃ x ∈ xs, ∃ lead ∈ [first, later], ∃ stop ∈ [between, last], line = lead ++ text x ++ stop := by
  rw [bracketed_eq_mapIdx] at h
  obtain ⟨i, hi, rfl⟩ := List.mem_mapIdx.1 h
  refine ⟨xs[i], List.getElem_mem hi, _, ?_, _, ?_, rfl⟩
  · split <;> simp
  · split <;> simp

/-- The line at a place, if there is an entry for it. -/
lemma getElem?_bracketed {i : ℕ} :
    (bracketed first later between last text xs)[i]?
      = xs[i]?.map fun x => (if i = 0 then first else later) ++ text x
          ++ (if i + 1 = xs.length then last else between) := by
  rw [bracketed_eq_mapIdx, List.getElem?_mapIdx]

/-- **Entries are read back line by line**, where the end does not stand in the way. -/
lemma mapIdx_bracketed {read : ℕ → String → β} {value : α → β}
    (h : ∀ i, ∀ x ∈ xs, ∀ stop ∈ [between, last],
      read i ((if i = 0 then first else later) ++ text x ++ stop) = value x) :
    (bracketed first later between last text xs).mapIdx read = xs.map value := by
  rw [bracketed_eq_mapIdx, List.mapIdx_mapIdx]
  refine List.ext_getElem (by simp) fun i hi _ => ?_
  rw [List.length_mapIdx] at hi
  rw [List.getElem_mapIdx, List.getElem_map]
  refine h i _ (List.getElem_mem hi) _ ?_
  split <;> simp

/-- A reader that gets by with any lead may be the same for all lines. -/
lemma map_bracketed {read : String → β} {value : α → β}
    (h : ∀ x ∈ xs, ∀ lead ∈ [first, later], ∀ stop ∈ [between, last],
      read (lead ++ text x ++ stop) = value x) :
    (bracketed first later between last text xs).map read = xs.map value := by
  have hread : (bracketed first later between last text xs).map read
      = (bracketed first later between last text xs).mapIdx fun _ => read :=
    List.ext_getElem (by simp) fun i _ _ => by simp
  rw [hread]
  refine mapIdx_bracketed fun i x hx => h x hx _ ?_
  split <;> simp

end Netscribe.Dialect
