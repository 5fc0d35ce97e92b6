import Mathlib.Data.List.Basic
import Mathlib.Tactic.Common
import Netscribe.Text.Fill

/-!
# The words of a text

Blanks separate words, and nothing else does: a word goes on up to the next blank or to the end.
Splitting a text finds its words, and words that are joined by a blank are found again.

* `Text.HasWords` — the words of some characters.
* **`Text.splitWords_eq_iff`** — splitting a text finds its words.
* `Text.hasWords_joined` — joined words, padded or not, are the words of the text.
-/

namespace Netscribe.Text

/-- **A single word**: not empty, and without a blank. -/
def IsUnbroken (word : String) : Prop :=
  word ≠ "" ∧ ∀ c ∈ word.toList, isBlank c = false

/-- **The words of some characters**, in order.  A word ends where a blank stands, or at the end. -/
inductive HasWords : List Char → List String → Prop
  | none : HasWords [] []
  | blank {c cs words} : isBlank c = true → HasWords cs words → HasWords (c :: cs) words
  | word {word cs words} : IsUnbroken word → (∀ c ∈ cs.head?, isBlank c = true) →
      HasWords cs words → HasWords (word.toList ++ cs) (word :: words)

variable {cs : List Char} {word : String} {words : List String}

lemma HasWords.isUnbroken (h : HasWords cs words) : ∀ word ∈ words, IsUnbroken word := by
  induction h with
  | none => simp
  | blank _ _ ih => exact ih
  | word hword _ _ ih => exact List.forall_mem_cons.2 ⟨hword, ih⟩

/-! ## Splitting -/

/-- The characters of a word are taken together. -/
lemma splitWordsFrom_append {read letters : List Char} (h : ∀ c ∈ letters, isBlank c = false) :
    splitWordsFrom read (letters ++ cs) = splitWordsFrom (letters.reverse ++ read) cs := by
  induction letters generalizing read with
  | nil => rfl
  | cons c letters ih =>
      obtain ⟨hc, hletters⟩ := List.forall_mem_cons.1 h
      rw [List.cons_append, splitWordsFrom, hc, if_neg Bool.false_ne_true, ih hletters,
        List.reverse_cons, List.append_assoc]
      rfl

/-- A word that was read is given out where it ends. -/
lemma splitWordsFrom_of_ends {read : List Char} (hread : read ≠ [])
    (hend : ∀ c ∈ cs.head?, isBlank c = true) :
    splitWordsFrom read cs = String.ofList read.reverse :: splitWordsFrom [] cs := by
  have hempty : read.isEmpty = false := by simpa using hread
  cases cs with
  | nil => simp [splitWordsFrom, hempty]
  | cons c cs => simp [splitWordsFrom, hempty, hend c rfl]

/-- The words are what splitting finds. -/
lemma HasWords.splitWordsFrom_eq (h : HasWords cs words) : splitWordsFrom [] cs = words := by
  induction h with
  | none => rfl
  | blank hc _ ih => simpa [splitWordsFrom, hc] using ih
  | @word word cs words hword hend _ ih =>
      have hread : word.toList.reverse ≠ [] := by simpa using hword.1
      rw [splitWordsFrom_append hword.2, List.append_nil, splitWordsFrom_of_ends hread hend, ih,
        List.reverse_reverse, String.ofList_toList]

/-- A word that was read, in front of the words after it. -/
lemma HasWords.read {read : List Char} (hread : read ≠ []) (hword : ∀ c ∈ read, isBlank c = false)
    (hend : ∀ c ∈ cs.head?, isBlank c = true) (h : HasWords cs words) :
    HasWords (read.reverse ++ cs) (String.ofList read.reverse :: words) := by
  have hunbroken : IsUnbroken (String.ofList read.reverse) :=
    ⟨by simpa using hread, by simpa using hword⟩
  simpa using HasWords.word hunbroken hend h

/-- What splitting finds are the words, the one that was begun before included. -/
lemma hasWords_splitWordsFrom {read : List Char} (hword : ∀ c ∈ read, isBlank c = false) :
    HasWords (read.reverse ++ cs) (splitWordsFrom read cs) := by
  induction cs generalizing read with
  | nil =>
      by_cases hread : read = []
      · subst hread
        exact .none
      · rw [splitWordsFrom_of_ends hread (by simp)]
        exact .read hread hword (by simp) .none
  | cons c cs ih =>
      cases hc : isBlank c with
      | true =>
          have hrest : HasWords (c :: cs) (splitWordsFrom [] (c :: cs)) := by
            simpa [splitWordsFrom, hc] using HasWords.blank hc (@ih [] (by simp))
          by_cases hread : read = []
          · subst hread
            exact hrest
          · have hend : ∀ x ∈ (c :: cs).head?, isBlank x = true := by simpa using hc
            rw [splitWordsFrom_of_ends hread hend]
            exact .read hread hword hend hrest
      | false =>
          have hmore := ih (List.forall_mem_cons.2 ⟨hc, hword⟩)
          rw [List.reverse_cons, List.append_assoc] at hmore
          rwa [splitWordsFrom, hc, if_neg Bool.false_ne_true]

/-- **Splitting a text finds its words.** -/
theorem splitWords_eq_iff {text : String} : splitWords text = words ↔ HasWords text.toList words := by
  constructor
  · rintro rfl
    exact @hasWords_splitWordsFrom text.toList [] (by simp)
  · exact HasWords.splitWordsFrom_eq

/-! ## Joining -/

/-- **Joined words are found again**, also where blanks are put behind them. -/
lemma hasWords_joined {padding : List Char} (hwords : ∀ word ∈ words, IsUnbroken word)
    (hpadding : ∀ c ∈ padding, isBlank c = true) :
    HasWords ((String.intercalate " " words).toList ++ padding) words := by
  have hblanks : HasWords padding [] := by
    induction padding with
    | nil => exact .none
    | cons c padding ih =>
        obtain ⟨hc, hrest⟩ := List.forall_mem_cons.1 hpadding
        exact .blank hc (ih hrest)
  induction words with
  | nil => simpa using hblanks
  | cons word words ih =>
      obtain ⟨hword, hwords⟩ := List.forall_mem_cons.1 hwords
      cases words with
      | nil =>
          rw [String.intercalate_singleton]
          exact .word hword (fun c hc => hpadding c (List.mem_of_mem_head? hc)) hblanks
      | cons next words =>
          have hrest := HasWords.blank (c := ' ') (by decide) (ih hwords)
          simpa [String.intercalate_cons_cons] using HasWords.word hword (by simp; decide) hrest

end Netscribe.Text
