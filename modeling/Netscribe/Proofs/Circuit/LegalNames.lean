import Mathlib.Data.List.Chain
import Netscribe.Proofs.Circuit.Parts
import Netscribe.Proofs.Text.Identifier

/-!
# Which names the languages accept

A name in Verilog may have any word characters in any order, as long as it does not start with a digit.
VHDL asks for more: a name starts with a letter, ends with a letter or a digit, and has no two
underscores in a row.  A label has its characters replaced one by one, so what VHDL accepts can be seen
from the label.

* `Identifier.IsSimple` — what is a name in Verilog-2001.
* `Identifier.IsBasic` — what is a name in VHDL-93.
* `Identifier.IsSpaced` — labels of which every replaced character stands alone, between letters or
  digits.
* **`Identifier.legal_iff`** — the identifiers of all labels are names in Verilog, and in VHDL those of
  spaced labels alone.
-/

namespace Netscribe.Identifier

/-! ## The two grammars -/

/-- **A simple identifier of Verilog-2001**: a letter or an underscore, and then letters, digits,
underscores and dollar signs. -/
def IsSimple : List Char → Prop
  | [] => False
  | c :: cs => (c.isAlpha = true ∨ c = '_')
    ∧ ∀ x ∈ cs, x.isAlphanum = true ∨ x = '_' ∨ x = '$'

/-- What may follow the first letter of a basic identifier: letters and digits, in front of each at most
one underscore. -/
inductive Continues : List Char → Prop
  | done : Continues []
  | plain {c cs} : c.isAlphanum = true → Continues cs → Continues (c :: cs)
  | underlined {c cs} : c.isAlphanum = true → Continues cs → Continues ('_' :: c :: cs)

/-- **A basic identifier of VHDL-93**, in ASCII: a letter, and then letters, digits and single
underscores, each followed by a letter or a digit. -/
def IsBasic : List Char → Prop
  | [] => False
  | c :: cs => c.isAlpha = true ∧ Continues cs

/-- **A spaced label** starts and ends with an ASCII letter or digit, and never has two other characters
in a row. -/
structure IsSpaced (label : List Char) : Prop where
  head : ∃ c ∈ label.head?, c.isAlphanum = true
  last : ∀ c ∈ label.getLast?, c.isAlphanum = true
  alone : label.IsChain fun a b => a.isAlphanum = true ∨ b.isAlphanum = true

instance (label : List Char) : Decidable (IsSpaced label) :=
  decidable_of_iff
    (label.head?.any Char.isAlphanum = true ∧ label.getLast?.all Char.isAlphanum = true
      ∧ label.IsChain fun a b => a.isAlphanum = true ∨ b.isAlphanum = true)
    ⟨fun ⟨hhead, hlast, halone⟩ =>
      ⟨(Option.any_eq_true ..).1 hhead, (Option.all_eq_true ..).1 hlast, halone⟩,
    fun ⟨hhead, hlast, halone⟩ =>
      ⟨(Option.any_eq_true ..).2 hhead, (Option.all_eq_true ..).2 hlast, halone⟩⟩

variable {c : Char} {cs : List Char}

lemma isAlphanum_wordChar (c : Char) : (wordChar c).isAlphanum = c.isAlphanum := by
  rw [wordChar]
  split
  · rfl
  · next h =>
      rw [isWordChar, Bool.or_eq_true, not_or, Bool.not_eq_true] at h
      rw [h.1]
      decide

lemma wordChar_of_not_isAlphanum (h : c.isAlphanum = false) : wordChar c = '_' := by
  rw [wordChar, isWordChar, h, Bool.false_or]
  split
  · next heq => exact beq_iff_eq.1 heq
  · rfl

/-! ## Names in VHDL -/

lemma continues_cons_iff (h : c.isAlphanum = true) : Continues (c :: cs) ↔ Continues cs := by
  constructor
  · intro hcs
    cases hcs with
    | plain _ hcs => exact hcs
    | underlined => exact absurd h (by decide)
  · exact .plain h

/-- After an underscore there is a letter or a digit. -/
lemma continues_underscore_iff :
    Continues ('_' :: cs) ↔ (∃ c ∈ cs.head?, c.isAlphanum = true) ∧ Continues cs := by
  constructor
  · intro hcs
    cases hcs with
    | plain h => exact absurd h (by decide)
    | underlined hc hcs => exact ⟨⟨_, rfl, hc⟩, .plain hc hcs⟩
  · rintro ⟨⟨c, hhead, hc⟩, hcs⟩
    obtain ⟨cs, rfl⟩ := List.head?_eq_some_iff.1 hhead
    exact .underlined hc ((continues_cons_iff hc).1 hcs)

/-- What may follow is told by the characters of the label. -/
lemma continues_map_iff :
    Continues (cs.map wordChar) ↔ (∀ c ∈ cs.getLast?, c.isAlphanum = true)
      ∧ cs.IsChain fun a b => a.isAlphanum = true ∨ b.isAlphanum = true := by
  induction cs with
  | nil => simp [Continues.done]
  | cons c cs ih =>
      have hhead : (∃ x ∈ (cs.map wordChar).head?, x.isAlphanum = true)
          ↔ ∃ x ∈ cs.head?, x.isAlphanum = true := by
        simp [isAlphanum_wordChar]
      rw [List.map_cons, List.isChain_cons]
      cases hc : c.isAlphanum with
      | true =>
          rw [continues_cons_iff (by rwa [isAlphanum_wordChar]), ih]
          cases cs with
          | nil => simp [hc]
          | cons d cs => simp
      | false =>
          rw [wordChar_of_not_isAlphanum hc, continues_underscore_iff, hhead, ih]
          cases cs with
          | nil => simp [hc]
          | cons d cs => simp [and_left_comm]

/-- With a letter or a digit in front, what may follow makes a spaced label. -/
lemma isSpaced_cons_iff (h : c.isAlphanum = true) :
    IsSpaced (c :: cs) ↔ Continues (cs.map wordChar) := by
  rw [← continues_cons_iff (c := wordChar c) (by rwa [isAlphanum_wordChar]), ← List.map_cons,
    continues_map_iff]
  exact ⟨fun hspaced => ⟨hspaced.last, hspaced.alone⟩,
    fun ⟨hlast, halone⟩ => ⟨⟨c, rfl, h⟩, hlast, halone⟩⟩

/-- **VHDL accepts the identifiers of spaced labels**, and no others. -/
lemma isBasic_ofChars_iff (label : List Char) : IsBasic (ofChars label) ↔ IsSpaced label := by
  cases label with
  | nil => exact ⟨False.elim, fun h => by simpa using h.head⟩
  | cons c cs =>
      rw [ofChars]
      cases hdigit : c.isDigit with
      | true =>
          -- the letter and the underscore in front of a digit change nothing
          have hc : c.isAlphanum = true := by simp [Char.isAlphanum, hdigit]
          have hhead : ∃ x ∈ ((c :: cs).map wordChar).head?, x.isAlphanum = true :=
            ⟨wordChar c, rfl, by rwa [isAlphanum_wordChar]⟩
          show 'L'.isAlpha = true ∧ Continues ('_' :: (c :: cs).map wordChar) ↔ _
          rw [continues_underscore_iff, isSpaced_cons_iff hc, List.map_cons,
            continues_cons_iff (by rwa [isAlphanum_wordChar])]
          exact ⟨fun h => h.2.2, fun h => ⟨by decide, hhead, h⟩⟩
      | false =>
          show (wordChar c).isAlpha = true ∧ Continues (cs.map wordChar) ↔ _
          cases hc : c.isAlphanum with
          | true =>
              have halpha : c.isAlpha = true := by simpa [Char.isAlphanum, hdigit] using hc
              rw [isSpaced_cons_iff hc, wordChar_of_isWordChar (by simp [isWordChar, hc])]
              exact and_iff_right halpha
          | false =>
              rw [wordChar_of_not_isAlphanum hc]
              refine ⟨fun h => absurd h.1 (by decide), fun h => ?_⟩
              obtain ⟨_, ⟨⟩, hhead⟩ := h.head
              cases hc.symm.trans hhead

/-- An underscore and letters behind a name change nothing. -/
lemma continues_append_iff {more : List Char} (h : c.isAlphanum = true) (hmore : Continues more) :
    Continues (cs ++ '_' :: c :: more) ↔ Continues cs := by
  induction cs with
  | nil => exact iff_of_true (.underlined h hmore) .done
  | cons x cs ih =>
      cases hx : x.isAlphanum with
      | true => rw [List.cons_append, continues_cons_iff hx, continues_cons_iff hx, ih]
      | false =>
          by_cases hunderscore : x = '_'
          · subst hunderscore
            rw [List.cons_append, continues_underscore_iff, continues_underscore_iff, ih]
            cases cs with
            | nil => simp
            | cons y cs => simp
          · have hnone : ∀ cs, ¬ Continues (x :: cs) := by
              intro cs hcs
              cases hcs with
              | plain hplain => cases hx.symm.trans hplain
              | underlined => exact hunderscore rfl
            exact iff_of_false (hnone _) (hnone _)

/-! ## Names in Verilog -/

/-- **Verilog accepts all words** that are not empty and start with no digit. -/
lemma isSimple_of_isWord {name : List Char} (hne : name ≠ []) (hword : ∀ c ∈ name, isWordChar c = true)
    (hdigit : ∀ c ∈ name.head?, c.isDigit = false) : IsSimple name := by
  cases name with
  | nil => exact absurd rfl hne
  | cons c cs =>
      obtain ⟨hc, hcs⟩ := List.forall_mem_cons.1 hword
      refine ⟨?_, fun x hx => ?_⟩
      · simpa [isWordChar, Char.isAlphanum, hdigit c rfl] using hc
      · have := hcs x hx
        simp only [isWordChar, Bool.or_eq_true, beq_iff_eq] at this
        exact this.imp_right .inl

lemma ofLabel_ne_empty {label : String} (h : label ≠ "") : ofLabel label ≠ "" := by
  intro hempty
  have hchars := congrArg String.toList hempty
  rw [toList_ofLabel] at hchars
  cases hlabel : label.toList with
  | nil => exact h (String.toList_eq_nil_iff.1 hlabel)
  | cons c cs => simp [hlabel, ofChars] at hchars

lemma isSimple_ofLabel {label : String} (h : label ≠ "") : IsSimple (ofLabel label).toList := by
  refine isSimple_of_isWord ?_ (IsWord.ofLabel label) ?_
  · exact fun hnil => ofLabel_ne_empty h (String.toList_eq_nil_iff.1 hnil)
  · rw [toList_ofLabel]
    exact isDigit_head?_ofChars _

lemma isSimple_append {name suffix : List Char} (h : IsSimple name)
    (hsuffix : ∀ c ∈ suffix, isWordChar c = true) : IsSimple (name ++ suffix) := by
  cases name with
  | nil => exact h.elim
  | cons c cs =>
      refine ⟨h.1, fun x hx => ?_⟩
      rcases List.mem_append.1 hx with hx | hx
      · exact h.2 x hx
      · exact (Bool.or_eq_true _ _ ▸ hsuffix x hx).imp_right fun hx => .inl (beq_iff_eq.1 hx)

/-! ## Names of definitions and of ports -/

lemma isBasic_ofLabel_iff {label : String} :
    IsBasic (ofLabel label).toList ↔ IsSpaced label.toList := by
  rw [toList_ofLabel]
  exact isBasic_ofChars_iff _

lemma isSimple_definition {circuit : String} (h : circuit ≠ "") (gated : Bool) :
    IsSimple (Names.definition circuit gated).toList := by
  have hsuffix : IsWord (if gated then "_gated" else "") := by cases gated <;> decide
  rw [Names.definition, String.toList_append]
  exact isSimple_append (isSimple_ofLabel h) hsuffix

/-- The name of the gated variant is accepted if the name of the circuit is. -/
lemma isBasic_definition_iff {circuit : String} (h : circuit ≠ "") (gated : Bool) :
    IsBasic (Names.definition circuit gated).toList ↔ IsSpaced circuit.toList := by
  rw [← isBasic_ofLabel_iff, Names.definition, String.toList_append]
  cases gated with
  | false => simp
  | true =>
      have hne := ofLabel_ne_empty h
      cases hname : (ofLabel circuit).toList with
      | nil => exact absurd (String.toList_eq_nil_iff.1 hname) hne
      | cons c cs =>
          have hmore : Continues ['a', 't', 'e', 'd'] :=
            .plain rfl (.plain rfl (.plain rfl (.plain rfl .done)))
          exact and_congr_right fun _ => continues_append_iff (c := 'g') (by decide) hmore

/-- **Which names the languages accept.**  The identifier of every label is a name in Verilog; it is a
name in VHDL if and only if the label is spaced.  The same holds for the definitions of a circuit with
that name, gated or not, and for the port of a pin with that label. -/
theorem legal_iff {label : String} (h : label ≠ "") :
    (IsSimple (ofLabel label).toList
        ∧ (IsBasic (ofLabel label).toList ↔ IsSpaced label.toList))
      ∧ (∀ gated, IsSimple (Names.definition label gated).toList
        ∧ (IsBasic (Names.definition label gated).toList ↔ IsSpaced label.toList))
      ∧ ∀ (pin : Component) (port : String × ℕ), pin.label = label → pin.pinPort? = some port →
        IsSimple port.1.toList ∧ (IsBasic port.1.toList ↔ IsSpaced label.toList) := by
  refine ⟨⟨isSimple_ofLabel h, isBasic_ofLabel_iff⟩, fun gated => ?_, fun pin port hlabel hport => ?_⟩
  · exact ⟨isSimple_definition h gated, isBasic_definition_iff h gated⟩
  · obtain ⟨_, -, -, -, rfl⟩ := Component.pinPort?_eq_some_iff.1 hport
    subst hlabel
    exact ⟨isSimple_ofLabel h, isBasic_ofLabel_iff⟩

/-- A label with a blank and a hyphen, each between letters or digits, and one that ends in a blank. -/
theorem legal_iff_carryIn :
    let pin : Component := { label := "carry in-1", terminals := [.unconnected .output 1] }
    "carry in-1" ≠ "" ∧ "in " ≠ ""
      ∧ IsBasic (ofLabel "carry in-1").toList
      ∧ IsBasic (Names.definition "carry in-1" true).toList
      ∧ pin.pinPort? = some ("carry_in_1", 1) ∧ IsBasic "carry_in_1".toList
      ∧ IsSimple (ofLabel "in ").toList ∧ ¬ IsBasic (ofLabel "in ").toList := by
  intro pin
  have hspaced : IsSpaced "carry in-1".toList := by decide
  have hport : pin.pinPort? = some ("carry_in_1", 1) := by decide
  obtain ⟨⟨-, hlabel⟩, hdefinition, hpin⟩ := legal_iff (show "carry in-1" ≠ "" by decide)
  obtain ⟨⟨hsimple, hblank⟩, -, -⟩ := legal_iff (show "in " ≠ "" by decide)
  exact ⟨by decide, by decide, hlabel.2 hspaced, (hdefinition true).2.2 hspaced, hport,
    (hpin pin _ rfl hport).2.2 hspaced, hsimple, fun h => absurd (hblank.1 h) (by decide)⟩

/-- **A label whose identifier VHDL does not accept**: two letters in a row that ASCII lacks leave two
underscores in a row. -/
theorem not_isBasic_umlauts :
    "größe" ≠ "" ∧ ofLabel "größe" = "gr__e" ∧ ¬ IsBasic (ofLabel "größe").toList :=
  ⟨by decide, by decide, fun h => absurd (isBasic_ofLabel_iff.1 h) (by decide)⟩

end Netscribe.Identifier
