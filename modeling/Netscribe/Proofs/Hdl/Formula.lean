import Netscribe.Proofs.Hdl.Reading
import Netscribe.Proofs.Hdl.Statement

/-!
# Boolean expressions read back

The expression of a gate has its operands with an operator between them, and perhaps a negation
around them.  Here such a text is read, word by word, and evaluated.  As in `Reading`, the forms are
written out as the languages have them, and not through the functions that write them.

* `Dialect.operand?` — one bit of a signal, or the literal of a zero bit.
* `Formula`, `Formula.value` — an expression that was read, and what it evaluates to.
* `Dialect.formula?` — the expression that a text holds.
* **`Dialect.formula?_logicText`** — what is written for a gate is read as its operands with its
  operator between them.
-/

namespace Netscribe

/-! ## Operands -/

/-- The words that no signal may have as its name. -/
def reservedWords : List String :=
  ["AND", "OR", "XOR", "NOT"]

/-- **The name of a signal**: a word that starts with a letter and is not reserved. -/
def isSignalName (s : String) : Bool :=
  s.toList.all Identifier.isWordChar && s.toList.head?.any Char.isAlpha && !reservedWords.contains s

/-- What stands in front of a closing bracket. -/
def closed? (close : Char) (cs : List Char) : Option (List Char) :=
  if cs.getLast? = some close then some cs.dropLast else none

/-- A decimal number. -/
def number? (digits : List Char) : Option ℕ :=
  if digits ≠ [] ∧ digits.all Char.isDigit then some (Nat.ofDigitChars 10 digits 0) else none

namespace Dialect

/-- The index that stands in brackets. -/
def index? : Dialect → List Char → Option ℕ
  | .vhdl, '(' :: cs => (closed? ')' cs).bind number?
  | .verilog, '[' :: cs => (closed? ']' cs).bind number?
  | _, _ => none

/-- The literal of a zero bit. -/
def zeroBit : Dialect → String
  | .vhdl => "'0'"
  | .verilog => "1'd0"

/-- **One operand**: a bit of a signal, or none for a zero.  A name without an index is the lowest
bit of its signal. -/
def operand? (d : Dialect) (word : String) : Option (Option Wire) :=
  if word = d.zeroBit then some none
  else
    let name := String.ofList (word.toList.takeWhile Identifier.isWordChar)
    let index := word.toList.dropWhile Identifier.isWordChar
    if isSignalName name then
      (if index = [] then some 0 else d.index? index).map fun i => some ⟨name, i⟩
    else none

end Dialect

/-! ## Expressions -/

def LogicOp.apply : LogicOp → Bool → Bool → Bool
  | .and => Bool.and
  | .or => Bool.or
  | .xor => Bool.xor

/-- **A boolean expression**: operands with operators between them, negated as a whole or not. -/
structure Formula where
  negated : Bool
  first : Option Wire
  /-- The other operands, each with the operator in front of it. -/
  rest : List (LogicOp × Option Wire)
  deriving DecidableEq

/-- **What an expression evaluates to** for given bits: from the left, and a zero is false. -/
def Formula.value (bits : Wire → Bool) (f : Formula) : Bool :=
  let plain := f.rest.foldl (fun b (op, operand) => op.apply b (operand.any bits)) (f.first.any bits)
  if f.negated then !plain else plain

def Formula.operands (f : Formula) : List (Option Wire) :=
  f.first :: f.rest.map Prod.snd

namespace Dialect

/-- What a negation stands around. -/
def negated? : Dialect → List Char → Option (List Char)
  | .vhdl, 'N' :: 'O' :: 'T' :: '(' :: cs => closed? ')' cs
  | .verilog, '~' :: '(' :: cs => closed? ')' cs
  | _, _ => none

def operator? : Dialect → String → Option LogicOp
  | .vhdl, "AND" => some .and
  | .vhdl, "OR" => some .or
  | .vhdl, "XOR" => some .xor
  | .verilog, "&" => some .and
  | .verilog, "|" => some .or
  | .verilog, "^" => some .xor
  | _, _ => none

/-- Words that are operators and operands in turn. -/
def rest? (d : Dialect) : List String → Option (List (LogicOp × Option Wire))
  | [] => some []
  | [_] => none
  | operator :: operand :: words => do
    let operator ← d.operator? operator
    let operand ← d.operand? operand
    let rest ← d.rest? words
    return (operator, operand) :: rest

/-- Words that are an operand and then operators and operands in turn.  Different operators are not
mixed: one of the languages forbids it, and in the other they do not bind alike. -/
def words? (d : Dialect) (negated : Bool) : List String → Option Formula
  | [] => none
  | operand :: words => do
    let first ← d.operand? operand
    let rest ← d.rest? words
    if rest.Pairwise fun x y => x.1 = y.1 then return ⟨negated, first, rest⟩ else none

/-- **The expression that a text holds.** -/
def formula? (d : Dialect) (text : String) : Option Formula :=
  let words (cs : List Char) := (cs.splitOn ' ').map String.ofList
  match d.negated? text.toList with
  | some inside => d.words? true (words inside)
  | none => d.words? false (words text.toList)

end Dialect

/-! ## Operands that were written -/

/-- An operand that is one bit of a signal, or a single zero. -/
def Operand.IsBit : Operand → Prop
  | .ref r => r.IsSingle ∧ isSignalName r.name = true
  | .zeros width => width = 1

/-- The bit of a signal that an operand is, or none for a zero. -/
def Operand.wire : Operand → Option Wire
  | .ref r => some r.wire
  | .zeros _ => none

variable {d : Dialect}

lemma isSignalName_iff {s : String} :
    isSignalName s = true ↔
      IsWord s ∧ (∃ c cs, s.toList = c :: cs ∧ c.isAlpha = true) ∧ s ∉ reservedWords := by
  cases h : s.toList <;> simp [isSignalName, IsWord, h, and_assoc]

lemma Operand.IsBit.blank_not_mem_text {o : Operand} (h : o.IsBit) : ' ' ∉ (o.text d).toList := by
  cases o with
  | ref r => exact Ref.blank_not_mem_text h.1 (isSignalName_iff.1 h.2).1
  | zeros width =>
      obtain rfl : width = 1 := h
      cases d <;> decide

lemma number?_toDigits (n : ℕ) : number? (Nat.toDigits 10 n) = some n := by
  have hdigits : (Nat.toDigits 10 n).all Char.isDigit = true :=
    List.all_eq_true.2 fun _ => IsWord.isDigit_of_mem
  simp [number?, hdigits]

namespace Dialect

lemma index?_suffix (d : Dialect) (name : String) (i : ℕ) :
    d.index? ((Ref.bit name i).suffix d) = some i := by
  cases d <;>
    simp [Ref.suffix, bracketOpen, bracketClose, index?, closed?, number?_toDigits]

/-- The name of a signal does not start as the literal of a zero bit does. -/
lemma ne_zeroBit {word : String} {c : Char} {cs : List Char} (hword : word.toList = c :: cs)
    (hc : c.isAlpha = true) : word ≠ d.zeroBit := by
  rintro rfl
  cases d with
  | vhdl =>
      obtain rfl : '\'' = c := (List.cons.inj hword).1
      revert hc
      decide
  | verilog =>
      obtain rfl : '1' = c := (List.cons.inj hword).1
      revert hc
      decide

/-- What refers to one bit of a signal is read as that bit. -/
lemma operand?_text {r : Ref} (hr : r.IsSingle) (hname : isSignalName r.name = true) :
    d.operand? (r.text d) = some (some r.wire) := by
  obtain ⟨hword, ⟨c, cs, hcons, hc⟩, -⟩ := isSignalName_iff.1 hname
  have hsuffix : ∀ c ∈ (r.suffix d).head?, Identifier.isWordChar c = false :=
    fun c hc => not_isWordChar_of_mem (r.mem_bracketOpen_of_head? hc)
  have htext : (r.text d).toList = c :: (cs ++ r.suffix d) := by
    rw [Ref.toList_text, hcons, List.cons_append]
  have hzero : r.text d ≠ d.zeroBit := ne_zeroBit htext hc
  have htake : (r.text d).toList.takeWhile Identifier.isWordChar = r.name.toList := by
    rw [Ref.toList_text, takeWhile_append_of_boundary hword hsuffix]
  have hdrop : (r.text d).toList.dropWhile Identifier.isWordChar = r.suffix d := by
    rw [Ref.toList_text, dropWhile_append_of_boundary hword hsuffix]
  simp only [operand?, hzero, if_false, htake, hdrop, String.ofList_toList, hname, if_true]
  cases r with
  | whole name => rfl
  | bit name index =>
      have hne : (Ref.bit name index).suffix d ≠ [] := by cases d <;> simp [Ref.suffix, bracketOpen]
      rw [if_neg hne, index?_suffix]
      rfl
  | range name hi lo => cases hr

lemma operand?_zeros (d : Dialect) : d.operand? (d.zeros 1) = some none := by
  cases d <;> rfl

lemma operand?_operandText {o : Operand} (h : o.IsBit) : d.operand? (o.text d) = some o.wire := by
  cases o with
  | ref r => exact operand?_text h.1 h.2
  | zeros width =>
      obtain rfl : width = 1 := h
      exact operand?_zeros d

/-! ## Words -/

/-- An operator without the blanks around it. -/
def token : Dialect → LogicOp → String
  | .vhdl, .and => "AND"
  | .vhdl, .or => "OR"
  | .vhdl, .xor => "XOR"
  | .verilog, .and => "&"
  | .verilog, .or => "|"
  | .verilog, .xor => "^"

/-- A word, and further ones with an operator in front of each. -/
def alternating (d : Dialect) (op : LogicOp) (word : String) (words : List String) : List String :=
  word :: words.flatMap fun w => [d.token op, w]

lemma text_eq_token (d : Dialect) (op : LogicOp) :
    (op.text d).toList = ' ' :: (d.token op).toList ++ [' '] := by
  cases d <;> cases op <;> decide

lemma operator?_token (d : Dialect) (op : LogicOp) : d.operator? (d.token op) = some op := by
  cases d <;> cases op <;> rfl

lemma blank_not_mem_token (d : Dialect) (op : LogicOp) : ' ' ∉ (d.token op).toList := by
  cases d <;> cases op <;> decide

lemma toList_intercalate_text (op : LogicOp) (word : String) (words : List String) :
    (String.intercalate (op.text d) (word :: words)).toList
      = [' '].intercalate ((d.alternating op word words).map String.toList) := by
  induction words generalizing word with
  | nil => simp [alternating]
  | cons next words ih =>
      rw [String.intercalate_cons_cons, String.toList_append, String.toList_append, ih,
        text_eq_token]
      simp [alternating, List.intercalate_cons_cons]

/-- The first of the words is followed by a blank, if by anything. -/
lemma exists_toList_intercalate (op : LogicOp) (word : String) (words : List String) :
    ∃ more, (String.intercalate (op.text d) (word :: words)).toList = word.toList ++ more
      ∧ ∀ c ∈ more.head?, c = ' ' := by
  cases words with
  | nil => exact ⟨[], by simp, by simp⟩
  | cons next words =>
      refine ⟨(op.text d).toList ++ (String.intercalate (op.text d) (next :: words)).toList, ?_, ?_⟩
      · rw [String.intercalate_cons_cons, String.toList_append, String.toList_append,
          List.append_assoc]
      · rw [text_eq_token]
        rintro c ⟨⟩
        rfl

/-- Words without blanks are told again by the blanks between them. -/
lemma splitOn_alternating (op : LogicOp) {word : String} {words : List String}
    (h : ∀ w ∈ word :: words, ' ' ∉ w.toList) :
    ((String.intercalate (op.text d) (word :: words)).toList.splitOn ' ').map String.ofList
      = d.alternating op word words := by
  have hblank : ∀ l ∈ (d.alternating op word words).map String.toList, ' ' ∉ l := by
    intro l hl
    obtain ⟨w, hw, rfl⟩ := List.mem_map.1 hl
    rcases List.mem_cons.1 hw with rfl | hw
    · exact h w List.mem_cons_self
    · obtain ⟨next, hnext, hw⟩ := List.mem_flatMap.1 hw
      rcases List.mem_pair.1 hw with rfl | rfl
      · exact blank_not_mem_token d op
      · exact h w (List.mem_cons_of_mem _ hnext)
  rw [toList_intercalate_text, List.splitOn_intercalate ' ' hblank (by simp [alternating]),
    List.map_map]
  simp [Function.comp_def]

lemma rest?_alternating (op : LogicOp) {operands : List Operand} (h : ∀ o ∈ operands, o.IsBit) :
    d.rest? ((operands.map (Operand.text d)).flatMap fun w => [d.token op, w])
      = some (operands.map fun o => (op, o.wire)) := by
  induction operands with
  | nil => rfl
  | cons o operands ih =>
      have hrest := ih fun x hx => h x (List.mem_cons_of_mem _ hx)
      simp only [List.map_cons, List.flatMap_cons, List.cons_append, List.nil_append, rest?,
        operator?_token, operand?_operandText (h o List.mem_cons_self), hrest]
      rfl

lemma words?_alternating (op : LogicOp) (negated : Bool) {o : Operand} {operands : List Operand}
    (h : ∀ x ∈ o :: operands, x.IsBit) :
    d.words? negated (d.alternating op (o.text d) (operands.map (Operand.text d)))
      = some ⟨negated, o.wire, operands.map fun x => (op, x.wire)⟩ := by
  have hrest := rest?_alternating (d := d) op fun x hx => h x (List.mem_cons_of_mem _ hx)
  have hsame : (operands.map fun x => (op, x.wire)).Pairwise fun x y => x.1 = y.1 :=
    List.pairwise_map.2 (List.pairwise_of_forall fun _ _ => rfl)
  simp only [alternating, words?, operand?_operandText (h o List.mem_cons_self), hrest,
    Option.bind_eq_bind, Option.bind_some, if_pos hsame]
  rfl

/-! ## What is written for a gate -/

/-- A text that starts with no negation. -/
lemma negated?_eq_none {cs : List Char}
    (hword : cs.takeWhile Identifier.isWordChar ≠ ['N', 'O', 'T']) (htilde : cs.head? ≠ some '~') :
    d.negated? cs = none := by
  unfold negated?
  split
  · exact absurd rfl hword
  · exact absurd rfl htilde
  · rfl

/-- A text that starts with an operand starts with no negation. -/
lemma negated?_operand {o : Operand} (h : o.IsBit) {more : List Char}
    (hmore : ∀ c ∈ more.head?, c = ' ') : d.negated? ((o.text d).toList ++ more) = none := by
  cases o with
  | ref r =>
      obtain ⟨hword, ⟨c, cs, hcons, hc⟩, hreserved⟩ := isSignalName_iff.1 h.2
      have hrest : ∀ c ∈ (r.suffix d ++ more).head?, Identifier.isWordChar c = false := by
        intro c hc
        cases hs : r.suffix d with
        | nil =>
            rw [hs, List.nil_append] at hc
            rw [hmore c hc]
            decide
        | cons x xs =>
            rw [hs] at hc
            exact not_isWordChar_of_mem (r.mem_bracketOpen_of_head? (by rw [hs]; exact hc))
      have htext : (Operand.text d (.ref r)).toList ++ more
          = r.name.toList ++ (r.suffix d ++ more) := by
        rw [Operand.text, Ref.toList_text, List.append_assoc]
      rw [htext]
      refine negated?_eq_none ?_ ?_
      · rw [takeWhile_append_of_boundary hword hrest]
        intro hnot
        have hname : r.name = "NOT" := String.toList_inj.1 hnot
        exact hreserved (by rw [hname]; decide)
      · rw [hcons]
        rintro ⟨⟩
        revert hc
        decide
  | zeros width =>
      obtain rfl : width = 1 := h
      cases d <;> rfl

/-- **What is written for a gate is read as its operands with its operator between them**, negated if
the gate is. -/
theorem formula?_logicText (op : LogicOp) (negated : Bool) {o : Operand} {operands : List Operand}
    (h : ∀ x ∈ o :: operands, x.IsBit) :
    d.formula? (Expr.logicText d op negated (o :: operands))
      = some ⟨negated, o.wire, operands.map fun x => (op, x.wire)⟩ := by
  have hblank : ∀ w ∈ o.text d :: operands.map (Operand.text d), ' ' ∉ w.toList := by
    intro w hw
    rw [← List.map_cons] at hw
    obtain ⟨x, hx, rfl⟩ := List.mem_map.1 hw
    exact (h x hx).blank_not_mem_text
  have hwords := words?_alternating (d := d) op negated h
  rw [← splitOn_alternating op hblank] at hwords
  cases negated with
  | false =>
      have hnone : d.negated? (Expr.logicText d op false (o :: operands)).toList = none := by
        obtain ⟨more, hmore, hhead⟩ :=
          exists_toList_intercalate (d := d) op (o.text d) (operands.map (Operand.text d))
        exact (congrArg d.negated? hmore).trans (negated?_operand (h o List.mem_cons_self) hhead)
      rw [formula?, hnone]
      exact hwords
  | true =>
      have hinside : d.negated? (Expr.logicText d op true (o :: operands)).toList
          = some (String.intercalate (op.text d)
              (o.text d :: operands.map (Operand.text d))).toList := by
        cases d <;> simp [Expr.logicText, negated?, closed?]
      rw [formula?, hinside]
      exact hwords

example : Dialect.vhdl.formula? "NOT(s_logisimBus3(1) OR '0')"
    = some ⟨true, some ⟨"s_logisimBus3", 1⟩, [(.or, none)]⟩ := by
  decide

example : Dialect.verilog.formula? "a & b | c" = none := by
  decide

end Dialect

end Netscribe
