import Mathlib.Data.List.Chain
import Mathlib.Tactic.Common
import Netscribe.Text.Fill

/-!
# Filled lines

Filling puts all words into lines, in order, and starts a new line only where the next word does not
fit any more.  Widths are counted in bytes, of which a text has at least as many as characters.

* `Text.lineSize` — how many bytes joined words take.
* `Text.IsFull` — a line that could not have taken the first word of the next.
* `Text.flatten_fill`, `Text.ne_nil_of_mem_fill`, `Text.isChain_fill`,
  `Text.lineSize_le_of_mem_fill` — what the lines hold, and how far they are filled.
* `Text.length_le_utf8ByteSize`, `Text.length_padRight` — the width of a line in characters.
-/

namespace Netscribe.Text

/-- **How many bytes words take** that are joined by single blanks. -/
def lineSize (words : List String) : ℕ :=
  (String.intercalate " " words).utf8ByteSize

/-- **A line that could not have taken** the first word of the next one. -/
def IsFull (width : ℕ) (line next : List String) : Prop :=
  ∀ word ∈ next.head?, width < lineSize (line ++ [word])

variable {width used : ℕ} {line words : List String}

@[simp] lemma lineSize_singleton (word : String) : lineSize [word] = word.utf8ByteSize := by
  rw [lineSize, String.intercalate_singleton]

/-- One more word takes its bytes and one for the blank. -/
lemma lineSize_concat (h : line ≠ []) (word : String) :
    lineSize (line ++ [word]) = lineSize line + 1 + word.utf8ByteSize := by
  have hblank : (" " : String).utf8ByteSize = 1 := by decide
  rw [lineSize, String.intercalate_append_of_ne_nil h (List.cons_ne_nil _ _),
    String.intercalate_singleton, String.utf8ByteSize_append, String.utf8ByteSize_append, hblank,
    lineSize]

/-! ## Lines that continue a started one -/

lemma flatten_fillFrom : (fillFrom width line used words).flatten = line ++ words := by
  induction words generalizing line used with
  | nil => simp [fillFrom]
  | cons word words ih =>
      rw [fillFrom]
      split
      · rw [List.flatten_cons, ih, List.singleton_append]
      · rw [ih, List.append_assoc, List.singleton_append]

/-- The first line is the started one, with more words or none. -/
lemma exists_fillFrom_eq (width used : ℕ) (line words : List String) :
    ∃ more rest, fillFrom width line used words = (line ++ more) :: rest := by
  induction words generalizing line used with
  | nil => exact ⟨[], [], by rw [fillFrom, List.append_nil]⟩
  | cons word words ih =>
      rw [fillFrom]
      split
      · exact ⟨[], _, by rw [List.append_nil]⟩
      · obtain ⟨more, rest, hlines⟩ := ih (used + 1 + word.utf8ByteSize) (line ++ [word])
        exact ⟨word :: more, rest, by rw [hlines, List.append_assoc, List.singleton_append]⟩

lemma ne_nil_of_mem_fillFrom (hline : line ≠ []) :
    ∀ l ∈ fillFrom width line used words, l ≠ [] := by
  induction words generalizing line used with
  | nil => simpa [fillFrom] using hline
  | cons word words ih =>
      rw [fillFrom]
      split
      · exact List.forall_mem_cons.2 ⟨hline, ih (List.cons_ne_nil _ _)⟩
      · exact ih (by simp)

/-- **A new line is started only where the next word does not fit**, if the bytes of the started line
are counted right. -/
lemma isChain_fillFrom (hline : line ≠ []) (hused : used = lineSize line) :
    (fillFrom width line used words).IsChain (IsFull width) := by
  induction words generalizing line used with
  | nil => exact .singleton _
  | cons word words ih =>
      rw [fillFrom, hused, ← lineSize_concat hline]
      split
      · next hfull =>
          refine List.isChain_cons.2 ⟨?_, ih (List.cons_ne_nil _ _) (lineSize_singleton word).symm⟩
          obtain ⟨more, rest, hlines⟩ := exists_fillFrom_eq width word.utf8ByteSize [word] words
          rw [hlines]
          rintro _ ⟨⟩ _ ⟨⟩
          exact hfull
      · exact ih (by simp) rfl

/-- Where each word fits into a line, no line is too long. -/
lemma lineSize_le_of_mem_fillFrom (hline : line ≠ []) (hused : used = lineSize line) (hle : used ≤ width)
    (hwords : ∀ word ∈ words, word.utf8ByteSize ≤ width) :
    ∀ l ∈ fillFrom width line used words, lineSize l ≤ width := by
  induction words generalizing line used with
  | nil => simpa [fillFrom, ← hused] using hle
  | cons word words ih =>
      obtain ⟨hword, hwords⟩ := List.forall_mem_cons.1 hwords
      rw [fillFrom, hused, ← lineSize_concat hline]
      split
      · refine List.forall_mem_cons.2 ⟨hused ▸ hle, ?_⟩
        exact ih (List.cons_ne_nil _ _) (lineSize_singleton word).symm hword hwords
      · next hfits => exact ih (by simp) rfl (Nat.le_of_not_lt hfits) hwords

/-! ## Filled lines -/

/-- **The lines hold all words**, in order. -/
lemma flatten_fill (width : ℕ) (words : List String) : (fill width words).flatten = words := by
  cases words with
  | nil => rfl
  | cons word words => exact flatten_fillFrom

/-- There is an empty line only where there are no words. -/
lemma ne_nil_of_mem_fill (h : words ≠ []) : ∀ line ∈ fill width words, line ≠ [] := by
  cases words with
  | nil => exact absurd rfl h
  | cons word words => exact ne_nil_of_mem_fillFrom (List.cons_ne_nil _ _)

/-- **Each line is full** when the next one is started. -/
lemma isChain_fill (width : ℕ) (words : List String) :
    (fill width words).IsChain (IsFull width) := by
  cases words with
  | nil => exact .singleton _
  | cons word words =>
      exact isChain_fillFrom (List.cons_ne_nil _ _) (lineSize_singleton word).symm

/-- **No line is too long** where each word fits into one. -/
lemma lineSize_le_of_mem_fill (h : ∀ word ∈ words, word.utf8ByteSize ≤ width) :
    ∀ line ∈ fill width words, lineSize line ≤ width := by
  cases words with
  | nil => simp [fill, lineSize]
  | cons word words =>
      obtain ⟨hword, hwords⟩ := List.forall_mem_cons.1 h
      exact lineSize_le_of_mem_fillFrom (List.cons_ne_nil _ _) (lineSize_singleton word).symm hword
        hwords

/-! ## Characters -/

/-- A text has at least as many bytes as characters. -/
lemma length_le_utf8ByteSize (text : String) : text.length ≤ text.utf8ByteSize := by
  rw [← String.ofList_toList (s := text)]
  induction text.toList with
  | nil => simp
  | cons c cs ih =>
      have hc := c.utf8Size_pos
      rw [String.ofList_cons, String.length_append, String.utf8ByteSize_append,
        String.length_singleton, String.utf8ByteSize_singleton]
      omega

@[simp] lemma length_spaces (count : ℕ) : (spaces count).length = count := by
  simp [spaces]

/-- Text that is not too long gets the width it is padded to. -/
lemma length_padRight {text : String} (h : text.length ≤ width) :
    (padRight width text).length = width := by
  rw [padRight, String.length_append, length_spaces]
  omega

end Netscribe.Text
