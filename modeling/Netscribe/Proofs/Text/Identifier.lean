import Mathlib.Data.List.Basic
import Mathlib.Tactic.Common
import Netscribe.Text.Identifier

/-!
# Identifiers are words

An identifier holds word characters only, and so do the numbers that generated names end in.  A word
that starts with no digit is its own identifier, and hence every identifier is.

* `IsWord` — a text of word characters, as all generated names are.
* `IsWord.ofLabel` — every identifier is a word.
* **`Identifier.ofLabel_ofLabel`** — an identifier is its own identifier.
-/

namespace Netscribe

/-- A text of word characters. -/
def IsWord (s : String) : Prop :=
  ∀ c ∈ s.toList, Identifier.isWordChar c = true

instance (s : String) : Decidable (IsWord s) :=
  List.decidableBAll _ s.toList

/-! ## Characters -/

namespace Identifier

lemma isWordChar_of_isDigit {c : Char} (h : c.isDigit = true) : isWordChar c = true := by
  simp [isWordChar, Char.isAlphanum, h]

lemma wordChar_of_isWordChar {c : Char} (h : isWordChar c = true) : wordChar c = c :=
  if_pos h

lemma isWordChar_wordChar (c : Char) : isWordChar (wordChar c) = true := by
  rw [wordChar]
  split
  · assumption
  · decide

lemma isDigit_wordChar {c : Char} (h : c.isDigit = false) : (wordChar c).isDigit = false := by
  rw [wordChar]
  split
  · exact h
  · decide

end Identifier

/-! ## Words -/

namespace IsWord

lemma append {a b : String} (ha : IsWord a) (hb : IsWord b) : IsWord (a ++ b) := by
  intro c hc
  rw [String.toList_append, List.mem_append] at hc
  exact hc.elim (ha c) (hb c)

lemma isDigit_of_mem {n : ℕ} {c : Char} (h : c ∈ Nat.toDigits 10 n) : c.isDigit = true :=
  Nat.isDigit_of_mem_toDigits (by decide) (by decide) h

lemma natural (n : ℕ) : IsWord (toString n) := by
  intro c hc
  rw [Nat.toString_eq_repr, Nat.toList_repr] at hc
  exact Identifier.isWordChar_of_isDigit (isDigit_of_mem hc)

/-- Whatever the label, its identifier is a word. -/
lemma ofLabel (label : String) : IsWord (Identifier.ofLabel label) := by
  intro c hc
  rw [Identifier.toList_ofLabel] at hc
  cases hl : label.toList with
  | nil => simp [hl] at hc
  | cons x xs =>
      rw [hl, Identifier.ofChars, List.mem_append] at hc
      rcases hc with hc | hc
      · split at hc
        · rcases List.mem_pair.1 hc with rfl | rfl <;> decide
        · cases hc
      · obtain ⟨y, -, rfl⟩ := List.mem_map.1 hc
        exact Identifier.isWordChar_wordChar y

end IsWord

/-! ## Identifiers of identifiers -/

namespace Identifier

/-- A word that starts with no digit is its own identifier. -/
lemma ofChars_eq_self {cs : List Char} (hword : ∀ c ∈ cs, isWordChar c = true)
    (hdigit : ∀ c ∈ cs.head?, c.isDigit = false) : ofChars cs = cs := by
  cases cs with
  | nil => rfl
  | cons c cs =>
      have hmap : (c :: cs).map wordChar = c :: cs := by
        conv_rhs => rw [← List.map_id (c :: cs)]
        exact List.map_congr_left fun x hx => wordChar_of_isWordChar (hword x hx)
      rw [ofChars, if_neg (by simp [hdigit c rfl]), hmap, List.nil_append]

lemma isDigit_head?_ofChars (cs : List Char) : ∀ c ∈ (ofChars cs).head?, c.isDigit = false := by
  cases cs with
  | nil => simp
  | cons c cs =>
      intro x hx
      rw [ofChars] at hx
      cases hc : c.isDigit with
      | false =>
          obtain rfl : wordChar c = x := by simpa [hc] using hx
          exact isDigit_wordChar hc
      | true =>
          obtain rfl : 'L' = x := by simpa [hc, digitLead] using hx
          decide

/-- **An identifier is its own identifier.** -/
theorem ofLabel_ofLabel (label : String) : ofLabel (ofLabel label) = ofLabel label := by
  have hword : ∀ c ∈ ofChars label.toList, isWordChar c = true := by
    intro c hc
    exact IsWord.ofLabel label c (by simpa using hc)
  rw [ofLabel, toList_ofLabel, ofChars_eq_self hword (isDigit_head?_ofChars _)]
  rfl

end Identifier

end Netscribe
