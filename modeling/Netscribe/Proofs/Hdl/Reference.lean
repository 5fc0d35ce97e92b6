import Std.Data.String.ToNat
import Netscribe.Hdl.Association
import Netscribe.Proofs.Data.Lists
import Netscribe.Proofs.Text.Identifier

/-!
# References read back

A reference is a name, and after it perhaps an index or a range in brackets.  Names hold word
characters only and numbers hold digits only, so the text of a reference falls apart again in one
way: the longest word it starts with is the name, and the numbers stand between the brackets.

* `Dialect.elementKey`, `Dialect.base` — the text of one element of a port, and what is left of a
  text without its index.
* **`Ref.text_injective`** — references are told apart by their texts.
-/

namespace Netscribe

/-! ## Where a name ends -/

/-- **The text of one element of a port.** -/
def Dialect.elementKey (d : Dialect) (name : String) (index : ℕ) : String :=
  name ++ d.bracketOpen ++ toString index ++ d.bracketClose

/-- **A text without its index**: what stands in front of the first bracket. -/
def Dialect.base (d : Dialect) (key : String) : String :=
  String.ofList (key.toList.takeWhile fun c => !d.bracketOpen.toList.contains c)

/-- What the text of a reference has after the name. -/
def Ref.suffix (d : Dialect) : Ref → List Char
  | .whole _ => []
  | .bit _ index => d.bracketOpen.toList ++ Nat.toDigits 10 index ++ d.bracketClose.toList
  | .range _ hi lo =>
    d.bracketOpen.toList ++ Nat.toDigits 10 hi ++ d.rangeSeparator.toList ++ Nat.toDigits 10 lo
      ++ d.bracketClose.toList

lemma Dialect.not_isWordChar_of_mem {d : Dialect} {c : Char} (h : c ∈ d.bracketOpen.toList) :
    Identifier.isWordChar c = false := by
  cases d
  all_goals
    obtain rfl : c = _ := by simpa [bracketOpen] using h
    decide

namespace Ref

variable {d : Dialect}

lemma toList_text (d : Dialect) (r : Ref) : (r.text d).toList = r.name.toList ++ r.suffix d := by
  cases r <;> simp [text, name, suffix]

/-- After the name comes a bracket, if anything. -/
lemma mem_bracketOpen_of_head? (r : Ref) {c : Char} (hc : c ∈ (r.suffix d).head?) :
    c ∈ d.bracketOpen.toList := by
  cases r <;> cases d <;> simp_all [suffix, Dialect.bracketOpen, eq_comm]

/-- The text of a reference without its index is its name. -/
lemma base_text {r : Ref} (hr : IsWord r.name) : d.base (r.text d) = r.name := by
  have hname : ∀ c ∈ r.name.toList, (!d.bracketOpen.toList.contains c) = true := by
    intro c hc
    by_contra hmem
    have hfalse := Dialect.not_isWordChar_of_mem (d := d) (by simpa using hmem)
    rw [hr c hc] at hfalse
    cases hfalse
  have hsuffix : ∀ c ∈ (r.suffix d).head?, (!d.bracketOpen.toList.contains c) = false := by
    intro c hc
    simpa using r.mem_bracketOpen_of_head? (d := d) hc
  rw [Dialect.base, toList_text, takeWhile_append_of_boundary hname hsuffix, String.ofList_toList]

/-- Two texts of numbers that are followed by something else than a digit. -/
lemma number_inj {m n : ℕ} {c c' : Char} {rest rest' : List Char} (hc : c.isDigit = false)
    (hc' : c'.isDigit = false)
    (h : Nat.toDigits 10 m ++ c :: rest = Nat.toDigits 10 n ++ c' :: rest') :
    m = n ∧ c :: rest = c' :: rest' := by
  obtain ⟨hdigits, hrest⟩ := append_inj_of_boundary (p := Char.isDigit)
    (fun _ => IsWord.isDigit_of_mem) (fun _ => IsWord.isDigit_of_mem) (by simpa using hc)
    (by simpa using hc') h
  refine ⟨Nat.repr_injective ?_, hrest⟩
  rw [Nat.repr_eq_ofList_toDigits, Nat.repr_eq_ofList_toDigits, hdigits]

/-- A number in brackets ends at the bracket or, in a range, at the separator, and the two do not
start alike. -/
lemma exists_boundary (d : Dialect) :
    ∃ c c' sep, d.bracketClose.toList = [c] ∧ d.rangeSeparator.toList = c' :: sep
      ∧ c.isDigit = false ∧ c'.isDigit = false ∧ c ≠ c' := by
  cases d with
  | vhdl => exact ⟨')', ' ', "DOWNTO ".toList, by decide⟩
  | verilog => exact ⟨']', ':', [], by decide⟩

lemma bracketOpen_ne_nil (d : Dialect) : d.bracketOpen.toList ≠ [] := by
  cases d <;> decide

lemma suffix_inj {r s : Ref} (hname : r.name = s.name) (h : r.suffix d = s.suffix d) : r = s := by
  obtain ⟨c, c', sep, hclose, hsep, hc, hc', hne⟩ := exists_boundary d
  have hopen := bracketOpen_ne_nil d
  cases r with
  | whole a =>
      cases s with
      | whole b => exact congrArg whole hname
      | bit b j | range b hi lo => simp [suffix, hopen] at h
  | bit a i =>
      cases s with
      | whole b => simp [suffix, hopen] at h
      | bit b j =>
          simp only [suffix, hclose, List.append_assoc] at h
          obtain ⟨rfl, -⟩ := number_inj hc hc (List.append_cancel_left h)
          exact congrArg (bit · i) hname
      | range b hi lo =>
          simp only [suffix, hclose, hsep, List.append_assoc] at h
          obtain ⟨-, h⟩ := number_inj hc hc' (List.append_cancel_left h)
          exact absurd (List.cons.inj h).1 hne
  | range a hi lo =>
      cases s with
      | whole b => simp [suffix, hopen] at h
      | bit b j =>
          simp only [suffix, hclose, hsep, List.append_assoc] at h
          obtain ⟨-, h⟩ := number_inj hc' hc (List.append_cancel_left h)
          exact absurd (List.cons.inj h).1.symm hne
      | range b hi' lo' =>
          simp only [suffix, hclose, hsep, List.append_assoc] at h
          obtain ⟨rfl, htail⟩ := number_inj hc' hc' (List.append_cancel_left h)
          have hlo := List.append_cancel_left (List.cons.inj htail).2
          obtain ⟨rfl, -⟩ := number_inj hc hc hlo
          exact congrArg (range · hi lo) hname

/-- **References to words are told apart by their texts.** -/
theorem text_injective {r s : Ref} (hr : IsWord r.name) (hs : IsWord s.name)
    (h : r.text d = s.text d) : r = s := by
  have hlist := congrArg String.toList h
  rw [toList_text, toList_text] at hlist
  obtain ⟨hname, hsuffix⟩ := append_inj_of_boundary hr hs
    (fun c hc => Dialect.not_isWordChar_of_mem (r.mem_bracketOpen_of_head? hc))
    (fun c hc => Dialect.not_isWordChar_of_mem (s.mem_bracketOpen_of_head? hc)) hlist
  exact suffix_inj (String.toList_inj.1 hname) hsuffix

end Ref

end Netscribe
