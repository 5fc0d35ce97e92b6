import Netscribe.Hdl.Lines
import Netscribe.Proofs.Hdl.Reference

/-!
# Assignments read back

The line of an assignment has its target, padded with blanks, and then the operator and the source.
What refers to a single bit has no blank in it, so the target ends where the first blank stands, and
the source is what is left.

* `Lines.foldl_pushUnique` — lines that are added only when they are new.
* `toList_padRight_blank`, `dropWhile_blanks` — a padded text and what comes after the padding.
* `Ref.IsSingle` — a reference that is no range.
* **`Assignment.line_ofRef_inj`** — target and source are told by the line.
-/

namespace Netscribe

/-- Lines added one after the other, each only when it is new, are the first occurrences. -/
lemma Lines.foldl_pushUnique (lines : List String) :
    lines.foldl pushUnique [] = lines.eraseDups := by
  induction lines using List.reverseRecOn with
  | nil => rfl
  | append_singleton lines line ih =>
      rw [List.foldl_append, ih, List.foldl_cons, List.foldl_nil, pushUnique, eraseDups_concat]
      simp only [List.mem_eraseDups]

/-! ## Padding -/

/-- Blanks end a word. -/
lemma isWordChar_head?_blanks (n : ℕ) {rest : List Char} :
    ∀ c ∈ (List.replicate (n + 1) ' ' ++ rest).head?, Identifier.isWordChar c = false := by
  rintro c ⟨⟩
  decide

lemma dropWhile_blanks (n : ℕ) {rest : List Char} (hrest : ∀ c ∈ rest.head?, c ≠ ' ') :
    (List.replicate n ' ' ++ rest).dropWhile (· == ' ') = rest := by
  refine dropWhile_append_of_boundary (fun c hc => ?_) fun c hc => ?_
  · rw [List.eq_of_mem_replicate hc]
    rfl
  · simpa using hrest c hc

/-- Text that was padded, and a blank: more blanks. -/
lemma toList_padRight_blank (width : ℕ) (text : String) (rest : List Char) :
    (Text.padRight width text).toList ++ ' ' :: rest
      = text.toList ++ (List.replicate (width - text.length + 1) ' ' ++ rest) := by
  simp [Text.padRight, Text.spaces, List.replicate_succ', List.append_assoc]

/-! ## Where a target ends -/

/-- A reference that is no range. -/
def Ref.IsSingle : Ref → Prop
  | .whole _ | .bit _ _ => True
  | .range _ _ _ => False

variable {d : Dialect}

lemma Ref.blank_not_mem_text {r : Ref} (hr : r.IsSingle) (hname : IsWord r.name) :
    ' ' ∉ (r.text d).toList := by
  have hword : ' ' ∉ r.name.toList := fun h => by
    have hfalse : Identifier.isWordChar ' ' = false := by decide
    cases hfalse.symm.trans (hname _ h)
  have hdigits : ∀ n, ' ' ∉ Nat.toDigits 10 n := fun n h => by
    have hfalse : Char.isDigit ' ' = false := by decide
    cases hfalse.symm.trans (IsWord.isDigit_of_mem h)
  rw [toList_text, List.mem_append, not_or]
  refine ⟨hword, fun h => ?_⟩
  cases r with
  | whole name => cases h
  | bit name index =>
      simp only [suffix, List.mem_append] at h
      rcases h with (h | h) | h
      · exact absurd h (by cases d <;> decide)
      · exact hdigits index h
      · exact absurd h (by cases d <;> decide)
  | range name hi lo => cases hr

/-- A padded name ends at its first blank. -/
lemma alignName_inj {a a' : String} {rest rest' : List Char} (ha : ' ' ∉ a.toList)
    (ha' : ' ' ∉ a'.toList) (hrest : rest.head? = some ' ') (hrest' : rest'.head? = some ' ')
    (h : (alignName a).toList ++ rest = (alignName a').toList ++ rest') : a = a' ∧ rest = rest' := by
  have hblank : ∀ (n : ℕ) {l : List Char}, l.head? = some ' ' →
      ∀ c ∈ (List.replicate n ' ' ++ l).head?, (c != ' ') = false := by
    intro n l hl c hc
    have hhead : (List.replicate n ' ' ++ l).head? = some ' ' := by
      cases n with
      | zero => exact hl
      | succ n => rfl
    obtain rfl := Option.some.inj (hhead.symm.trans hc)
    decide
  have hletters : ∀ {s : String}, ' ' ∉ s.toList → ∀ c ∈ s.toList, (c != ' ') = true := by
    intro s hs c hc
    simpa using fun h : c = ' ' => hs (h ▸ hc)
  simp only [alignName, Text.padRight, Text.spaces, String.toList_append, String.toList_ofList,
    List.append_assoc] at h
  obtain ⟨hname, htail⟩ := append_inj_of_boundary (hletters ha) (hletters ha') (hblank _ hrest)
    (hblank _ hrest') h
  obtain rfl := String.toList_inj.1 hname
  exact ⟨rfl, List.append_cancel_left htail⟩

/-! ## Lines -/

/-- **Target and source are told by the line**, where each refers to a single bit. -/
theorem Assignment.line_ofRef_inj {target target' source source' : Ref} (ht : target.IsSingle)
    (ht' : target'.IsSingle) (htname : IsWord target.name) (htname' : IsWord target'.name)
    (hsname : IsWord source.name) (hsname' : IsWord source'.name)
    (h : (ofRef target source).line d = (ofRef target' source').line d) :
    target = target' ∧ source = source' := by
  have hoperator : ∀ rest, (d.assignOperator.toList ++ rest).head? = some ' ' := by
    intro rest
    cases d <;> rfl
  simp only [line, ofRef, Expr.text, Operand.text, String.append_assoc, String.append_right_inj] at h
  have hchars := congrArg String.toList h
  simp only [String.toList_append] at hchars
  obtain ⟨htarget, hrest⟩ := alignName_inj (Ref.blank_not_mem_text ht htname)
    (Ref.blank_not_mem_text ht' htname') (hoperator _) (hoperator _) hchars
  have hsource := String.toList_inj.1 (List.append_cancel_right (List.append_cancel_left hrest))
  exact ⟨Ref.text_injective htname htname' htarget, Ref.text_injective hsname hsname' hsource⟩

end Netscribe
