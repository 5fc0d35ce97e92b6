import Mathlib.Data.List.Basic
import Mathlib.Tactic.Common
import Mathlib.Tactic.IntervalCases
import Mathlib.Tactic.SplitIfs
import Netscribe.Json.Reader
import Netscribe.Json.Writer

/-!
# Texts of JSON values

The compact text of a value is read back as that value, whatever stands after it.  Only a number must
not go on after its digits.  A number with a fraction or an exponent is written as it was spelled, and
is not considered here.

* `Json.readString_write` — string literals, also those that denote no text.
* `Json.readNumber_write` — integers.
* `Json.Plain` — a value without other numbers.
* `Json.Plain.readsBack` — such a value, by induction on it.
* **`Json.parse?_render`** — a whole text.
-/

namespace Netscribe.Json

/-! ## Strings -/

section Strings

variable {cs : List Char}

/-- Reading goes on after one unit. -/
def andUnits (unit : ℕ) : Option (List ℕ × List Char) → Option (List ℕ × List Char) :=
  Option.map fun r => (unit :: r.1, r.2)

lemma readUnits_short {e c : Char} (h : shortEscape? e = some c) :
    readUnits ('\\' :: e :: cs) = andUnits c.toNat (readUnits cs) := by
  have hu : e ≠ 'u' := by
    rintro rfl
    cases h
  rw [readUnits.eq_def]
  simp [hu, h, andUnits, Option.map_eq_bind]

lemma readUnits_unit {a b c d : Char} {n : ℕ} (h : Hexadecimal.number? [a, b, c, d] = some n) :
    readUnits ('\\' :: 'u' :: a :: b :: c :: d :: cs) = andUnits n (readUnits cs) := by
  rw [readUnits.eq_def]
  simp [h, andUnits, Option.map_eq_bind]

lemma readUnits_raw {c : Char} (hquote : c ≠ '"') (hescape : c ≠ '\\') (h : 0x20 ≤ c.toNat) :
    readUnits (c :: cs) = andUnits c.toNat (readUnits cs) := by
  rw [readUnits.eq_def]
  simp [hescape, Nat.not_lt.2 h, andUnits, Option.map_eq_bind]

/-- An escaped control character names its code point. -/
lemma number?_hexEscape : ∀ n < 0x20,
    Hexadecimal.number? ['0', '0', Nat.digitChar (n / 16), Nat.digitChar (n % 16)] = some n := by
  decide

/-- A character is written as a short escape, as a number or as itself. -/
lemma writeChar_cases (c : Char) :
    (∃ e, writeChar c = ['\\', e] ∧ shortEscape? e = some c)
    ∨ (c.toNat < 0x20 ∧ writeChar c = hexEscape c.toNat)
    ∨ (c ≠ '"' ∧ c ≠ '\\' ∧ 0x20 ≤ c.toNat ∧ writeChar c = [c]) := by
  rw [writeChar]
  split_ifs with hquote hescape hback hform hfeed hreturn htab hlow
  · exact .inl ⟨'"', rfl, by rw [hquote]; rfl⟩
  · exact .inl ⟨'\\', rfl, by rw [hescape]; rfl⟩
  · obtain rfl : c = '\x08' := Char.toNat_inj.1 hback
    exact .inl ⟨'b', rfl, rfl⟩
  · obtain rfl : c = '\x0c' := Char.toNat_inj.1 hform
    exact .inl ⟨'f', rfl, rfl⟩
  · exact .inl ⟨'n', rfl, by rw [hfeed]; rfl⟩
  · exact .inl ⟨'r', rfl, by rw [hreturn]; rfl⟩
  · exact .inl ⟨'t', rfl, by rw [htab]; rfl⟩
  · exact .inr (.inl ⟨hlow, rfl⟩)
  · exact .inr (.inr ⟨hquote, hescape, Nat.not_lt.1 hlow, rfl⟩)

/-- **One character of a string is read back**, escaped or not. -/
lemma readUnits_writeChar (c : Char) (cs : List Char) :
    readUnits (writeChar c ++ cs) = andUnits c.toNat (readUnits cs) := by
  rcases writeChar_cases c with ⟨e, hwrite, he⟩ | ⟨hlow, hwrite⟩ | ⟨hquote, hescape, hlow, hwrite⟩
  · rw [hwrite]
    exact readUnits_short he
  · rw [hwrite]
    exact readUnits_unit (number?_hexEscape _ hlow)
  · rw [hwrite]
    exact readUnits_raw hquote hescape hlow

lemma readUnits_write (cs rest : List Char) :
    readUnits (cs.flatMap writeChar ++ '"' :: rest) = some (cs.map Char.toNat, rest) := by
  induction cs with
  | nil => simp [readUnits]
  | cons c cs ih =>
      rw [List.flatMap_cons, List.append_assoc, readUnits_writeChar, ih]
      rfl

/-- No character is a surrogate. -/
lemma not_surrogate (c : Char) : ¬ (0xD800 ≤ c.toNat ∧ c.toNat < 0xE000) := by
  have hvalid : c.toNat < 0xD800 ∨ 0xDFFF < c.toNat ∧ c.toNat < 0x110000 := c.valid
  omega

/-- **The code points of characters denote them.** -/
lemma decodeUnits_toNat : ∀ cs : List Char, decodeUnits (cs.map Char.toNat) = some cs
  | [] => rfl
  | [c] => by
      rw [List.map_singleton, decodeUnits, if_neg (not_surrogate c), Char.ofNat_toNat]
  | c :: c' :: cs => by
      have ih := decodeUnits_toNat (c' :: cs)
      rw [List.map_cons] at ih
      have hpair : ¬ (0xD800 ≤ c.toNat ∧ c.toNat < 0xDC00 ∧ 0xDC00 ≤ c'.toNat
          ∧ c'.toNat < 0xE000) := fun h => not_surrogate c ⟨h.1, Nat.lt_trans h.2.1 (by decide)⟩
      rw [List.map_cons, List.map_cons, decodeUnits, if_neg hpair, if_neg (not_surrogate c), ih,
        Char.ofNat_toNat]
      rfl

/-- **A string literal is read back**, without its opening quote. -/
theorem readString_write (s : Option String) (rest : List Char) :
    ∃ literal, writeString s = '"' :: literal ∧ readString (literal ++ rest) = some (s, rest) := by
  cases s with
  | none => exact ⟨_, rfl, rfl⟩
  | some s =>
      refine ⟨_, rfl, ?_⟩
      rw [readString, List.append_assoc, List.singleton_append, readUnits_write]
      simp [decodeUnits_toNat]

end Strings

/-! ## Numbers -/

/-- **A number ends here**: what follows is no digit, fraction or exponent. -/
def EndsNumber (rest : List Char) : Prop :=
  ∀ c ∈ rest.head?, c.isDigit = false ∧ c ≠ '.' ∧ c ≠ 'e' ∧ c ≠ 'E'

lemma head?_toDigits_ne (n : ℕ) (h : 0 < n) : (Nat.toDigits 10 n).head? ≠ some '0' := by
  induction n using Nat.strongRecOn with
  | ind n ih =>
      rcases Nat.lt_or_ge n 10 with hlt | hge
      · rw [Nat.toDigits_of_lt_base hlt]
        interval_cases n <;> decide
      · rw [Nat.toDigits_of_base_le (by decide) hge, List.head?_append_of_ne_nil _ Nat.toDigits_ne_nil]
        exact ih (n / 10) (by omega) (by omega)

lemma spanDigits_toDigits (n : ℕ) {rest : List Char} (h : EndsNumber rest) :
    spanDigits (Nat.toDigits 10 n ++ rest) = (Nat.toDigits 10 n, rest) := by
  have hdigits : ∀ c ∈ Nat.toDigits 10 n, c.isDigit = true := fun c hc =>
    Nat.isDigit_of_mem_toDigits (by decide) (by decide) hc
  have hrest : rest.takeWhile Char.isDigit = [] ∧ rest.dropWhile Char.isDigit = rest := by
    cases rest with
    | nil => exact ⟨rfl, rfl⟩
    | cons c cs => simp [(h c rfl).1]
  rw [spanDigits, List.takeWhile_append_of_pos hdigits, List.dropWhile_append_of_pos hdigits,
    hrest.1, hrest.2, List.append_nil]

lemma readFraction_of_endsNumber {rest : List Char} (h : EndsNumber rest) :
    readFraction rest = some ([], rest) := by
  cases rest with
  | nil => rfl
  | cons c cs => simp [readFraction, (h c rfl).2.1]

lemma readExponent_of_endsNumber {rest : List Char} (h : EndsNumber rest) :
    readExponent rest = some ([], rest) := by
  cases rest with
  | nil => rfl
  | cons c cs => simp [readExponent, (h c rfl).2.2]

lemma readMagnitude_toDigits (negative : Bool) (n : ℕ) {rest : List Char} (h : EndsNumber rest) :
    readMagnitude negative (Nat.toDigits 10 n ++ rest)
      = some (numberOf negative (Nat.toDigits 10 n) [], rest) := by
  rw [readMagnitude, spanDigits_toDigits n h]
  dsimp only
  split
  · next hnil => exact absurd hnil Nat.toDigits_ne_nil
  · next c cs hzero =>
      -- only zero starts with a zero, and it has no other digit
      rcases Nat.eq_zero_or_pos n with rfl | hpos
      · cases hzero
      · exact absurd (congrArg List.head? hzero) (head?_toDigits_ne n hpos)
  · rw [readFraction_of_endsNumber h, Option.bind_eq_bind, Option.bind_some,
      readExponent_of_endsNumber h]
    rfl

lemma exists_writeInteger_eq_cons (n : ℤ) :
    ∃ c cs, writeInteger n = c :: cs ∧ (c.isDigit = true ∨ c = '-') := by
  cases n with
  | ofNat n =>
      obtain ⟨c, cs, hcons⟩ := List.exists_cons_of_ne_nil (Nat.toDigits_ne_nil (b := 10) (n := n))
      refine ⟨c, cs, hcons, .inl ?_⟩
      exact Nat.isDigit_of_mem_toDigits (b := 10) (n := n) (by decide) (by decide)
        (hcons ▸ List.mem_cons_self)
  | negSucc n => exact ⟨_, _, rfl, .inr rfl⟩

/-- **An integer is read back.** -/
theorem readNumber_write (n : ℤ) {rest : List Char} (h : EndsNumber rest) :
    readNumber (writeInteger n ++ rest) = some (.integer n, rest) := by
  cases n with
  | ofNat n =>
      have hsign : ∀ cs, Nat.toDigits 10 n ++ rest ≠ '-' :: cs := by
        intro cs hcs
        have hhead := congrArg List.head? hcs
        rw [List.head?_append_of_ne_nil _ Nat.toDigits_ne_nil] at hhead
        have hdigit := Nat.isDigit_of_mem_toDigits (by decide) (by decide)
          (List.mem_of_head? hhead)
        cases hdigit
      rw [writeInteger, readNumber.eq_2 _ hsign, readMagnitude_toDigits false n h, numberOf,
        Nat.ofDigitChars_ten_toDigits]
      rfl
  | negSucc n =>
      rw [writeInteger, List.cons_append, readNumber, readMagnitude_toDigits true (n + 1) h,
        numberOf]
      simp [Nat.ofDigitChars_ten_toDigits, Int.negSucc_eq]

/-! ## Values -/

/-- **A plain value** has no numbers but integers. -/
inductive Plain : Json → Prop
  | null : Plain .null
  | bool (b : Bool) : Plain (.bool b)
  | integer (n : ℤ) : Plain (.integer n)
  | string (s : Option String) : Plain (.string s)
  | array {items : List Json} : (∀ v ∈ items, Plain v) → Plain (.array items)
  | object {members : List (Option String × Json)} :
      (∀ m ∈ members, Plain m.2) → Plain (.object members)

/-- The characters that a value starts with. -/
def Opens (c : Char) : Prop :=
  c.isDigit = true ∨ c ∈ ['n', 't', 'f', '"', '[', '\x7b', '-']

/-- What stands after a value: nothing, a comma or a closing bracket. -/
def Closes (rest : List Char) : Prop :=
  ∀ c ∈ rest.head?, c ∈ [',', ']', '\x7d']

lemma Closes.endsNumber {rest : List Char} (h : Closes rest) : EndsNumber rest := by
  intro c hc
  have hmem := h c hc
  simp only [List.mem_cons, List.not_mem_nil, or_false] at hmem
  rcases hmem with rfl | rfl | rfl <;> decide

/-- A value has a text, which starts like one. -/
lemma Plain.exists_write_eq_cons {j : Json} (h : j.Plain) :
    ∃ c cs, write j = c :: cs ∧ Opens c := by
  cases h with
  | null => exact ⟨'n', ['u', 'l', 'l'], rfl, .inr (by simp)⟩
  | bool b =>
      cases b with
      | false => exact ⟨'f', ['a', 'l', 's', 'e'], rfl, .inr (by simp)⟩
      | true => exact ⟨'t', ['r', 'u', 'e'], rfl, .inr (by simp)⟩
  | integer n =>
      obtain ⟨c, cs, hcons, hc⟩ := exists_writeInteger_eq_cons n
      exact ⟨c, cs, hcons, hc.imp id (by rintro rfl; simp)⟩
  | string s =>
      obtain ⟨literal, hliteral, -⟩ := readString_write s []
      exact ⟨_, _, hliteral, .inr (by simp)⟩
  | @array items _ => cases items <;> exact ⟨_, _, rfl, .inr (by simp)⟩
  | @object members _ => cases members <;> exact ⟨_, _, rfl, .inr (by simp)⟩

/-- Every blank is below the characters that can be seen. -/
lemma skipBlanks_cons {c : Char} (h : 0x20 < c.toNat) (cs : List Char) :
    skipBlanks (c :: cs) = c :: cs := by
  have hne : ∀ {c' : Char}, c'.toNat ≤ 0x20 → c ≠ c' := by
    rintro c' hc' rfl
    exact Nat.not_lt.2 hc' h
  have hspace : c ≠ ' ' := hne (by decide)
  have htab : c ≠ '\t' := hne (by decide)
  have hfeed : c ≠ '\n' := hne (by decide)
  have hreturn : c ≠ '\r' := hne (by decide)
  rw [skipBlanks, List.dropWhile_cons, if_neg (by simp [hspace, htab, hfeed, hreturn])]

lemma Opens.visible {c : Char} (h : Opens c) : 0x20 < c.toNat := by
  rcases h with h | h
  · exact Nat.lt_of_lt_of_le (by decide) (Char.isDigit_iff_toNat.1 h).1
  · simp only [List.mem_cons, List.not_mem_nil, or_false] at h
    rcases h with rfl | rfl | rfl | rfl | rfl | rfl | rfl <;> decide

lemma Plain.skipBlanks_write {j : Json} (h : j.Plain) (rest : List Char) :
    skipBlanks (write j ++ rest) = write j ++ rest := by
  obtain ⟨c, cs, hcons, hc⟩ := h.exists_write_eq_cons
  rw [hcons, List.cons_append, skipBlanks_cons hc.visible]

lemma skipBlanks_of_closes {rest : List Char} (h : Closes rest) : skipBlanks rest = rest := by
  cases rest with
  | nil => rfl
  | cons c cs =>
      have hc := h c rfl
      simp only [List.mem_cons, List.not_mem_nil, or_false] at hc
      refine skipBlanks_cons ?_ cs
      rcases hc with rfl | rfl | rfl <;> decide

lemma closes_writeItems (vs : List Json) (rest : List Char) : Closes (writeItems vs ++ rest) := by
  cases vs <;> · rintro c hc; obtain rfl := Option.some.inj hc; simp

lemma closes_writeMembers (ms : List (Option String × Json)) (rest : List Char) :
    Closes (writeMembers ms ++ rest) := by
  cases ms <;> · rintro c hc; obtain rfl := Option.some.inj hc; simp

/-- **A value is read back** from its text, at any depth that the text has room for. -/
def ReadsBack (j : Json) : Prop :=
  ∀ depth rest, (write j).length ≤ depth → Closes rest →
    readValue depth (write j ++ rest) = some (j, rest)

lemma readItems_write {vs : List Json} (hplain : ∀ v ∈ vs, v.Plain) (hvs : ∀ v ∈ vs, v.ReadsBack) :
    ∀ depth rest, (writeItems vs).length ≤ depth →
      readItems depth (writeItems vs ++ rest) = some (vs, rest) := by
  induction vs with
  | nil =>
      intro depth rest hdepth
      obtain ⟨depth, rfl⟩ := Nat.exists_eq_add_of_le' hdepth
      simp [writeItems, readItems]
  | cons v vs ih =>
      intro depth rest hdepth
      rw [List.forall_mem_cons] at hplain hvs
      rw [writeItems, List.length_cons, List.length_append] at hdepth
      obtain ⟨depth, rfl⟩ := Nat.exists_eq_add_of_le' (Nat.le_trans (Nat.le_add_left 1 _) hdepth)
      rw [writeItems, List.cons_append, List.append_assoc, readItems, hplain.1.skipBlanks_write,
        hvs.1 depth _ (by omega) (closes_writeItems vs rest)]
      simp [skipBlanks_of_closes (closes_writeItems vs rest),
        ih hplain.2 hvs.2 depth rest (by omega)]

lemma readMember_write (key : Option String) {v : Json} (hplain : v.Plain) (hv : v.ReadsBack)
    {depth : ℕ} {rest : List Char} (hrest : Closes rest)
    (hdepth : (writeString key ++ ':' :: write v).length ≤ depth) :
    readMember depth (writeString key ++ ':' :: (write v ++ rest)) = some ((key, v), rest) := by
  obtain ⟨literal, hliteral, hkey⟩ := readString_write key (':' :: (write v ++ rest))
  rw [hliteral, List.cons_append, List.length_cons, List.length_append, List.length_cons] at hdepth
  obtain ⟨depth, rfl⟩ := Nat.exists_eq_add_of_le' (Nat.le_trans (Nat.le_add_left 1 _) hdepth)
  have hcolon : skipBlanks (':' :: (write v ++ rest)) = ':' :: (write v ++ rest) :=
    skipBlanks_cons (by decide) _
  rw [hliteral, List.cons_append, readMember, hkey]
  simp [hcolon, hplain.skipBlanks_write, hv depth rest (by omega) hrest]

lemma readMembers_write {ms : List (Option String × Json)} (hplain : ∀ m ∈ ms, m.2.Plain)
    (hms : ∀ m ∈ ms, m.2.ReadsBack) : ∀ depth rest, (writeMembers ms).length ≤ depth →
      readMembers depth (writeMembers ms ++ rest) = some (ms, rest) := by
  induction ms with
  | nil =>
      intro depth rest hdepth
      obtain ⟨depth, rfl⟩ := Nat.exists_eq_add_of_le' hdepth
      simp [writeMembers, readMembers]
  | cons m ms ih =>
      intro depth rest hdepth
      obtain ⟨key, v⟩ := m
      obtain ⟨hv : v.Plain, hplain⟩ := List.forall_mem_cons.1 hplain
      obtain ⟨hvback : v.ReadsBack, hms⟩ := List.forall_mem_cons.1 hms
      have hlength : (writeString key ++ ':' :: write v).length + (writeMembers ms).length < depth := by
        simp only [writeMembers, List.length_cons, List.length_append] at hdepth ⊢
        omega
      obtain ⟨depth, rfl⟩ := Nat.exists_eq_add_of_le' (Nat.le_trans (Nat.le_add_left 1 _) hlength)
      have hmember : readMember depth (writeString key ++ ':' :: (write v ++ (writeMembers ms ++ rest)))
          = some ((key, v), writeMembers ms ++ rest) :=
        readMember_write key hv hvback (closes_writeMembers ms rest) (by omega)
      have hquote : skipBlanks (writeString key ++ ':' :: (write v ++ (writeMembers ms ++ rest)))
          = writeString key ++ ':' :: (write v ++ (writeMembers ms ++ rest)) := by
        obtain ⟨literal, hliteral, -⟩ := readString_write key []
        rw [hliteral]
        exact skipBlanks_cons (by decide) _
      rw [writeMembers, List.cons_append, List.append_assoc, List.cons_append, List.append_assoc,
        readMembers, hquote, hmember]
      simp [skipBlanks_of_closes (closes_writeMembers ms rest),
        ih hplain hms depth rest (by omega)]

lemma Plain.exists_depth {j : Json} (h : j.Plain) {depth : ℕ} (hdepth : (write j).length ≤ depth) :
    ∃ k, depth = k + 1 := by
  obtain ⟨c, cs, hcons, -⟩ := h.exists_write_eq_cons
  rw [hcons, List.length_cons] at hdepth
  exact Nat.exists_eq_add_of_le' (Nat.le_trans (Nat.le_add_left 1 _) hdepth)

/-- What starts with a digit or a sign is a number. -/
lemma readValue_number {c : Char} (h : c.isDigit = true ∨ c = '-') (depth : ℕ) (cs : List Char) :
    readValue (depth + 1) (c :: cs) = readNumber (c :: cs) := by
  have hne : ∀ {c' : Char}, c'.isDigit = false → c' ≠ '-' → c ≠ c' := by
    rintro c' hdigit hsign rfl
    rcases h with h | h
    · rw [hdigit] at h
      cases h
    · exact hsign h
  have hn : c ≠ 'n' := hne (by decide) (by decide)
  have ht : c ≠ 't' := hne (by decide) (by decide)
  have hf : c ≠ 'f' := hne (by decide) (by decide)
  have hquote : c ≠ '"' := hne (by decide) (by decide)
  have hbracket : c ≠ '[' := hne (by decide) (by decide)
  have hbrace : c ≠ '\x7b' := hne (by decide) (by decide)
  rw [readValue.eq_def]
  simp [hn, ht, hf, hquote, hbracket, hbrace]

/-- An array is read back if its items are. -/
lemma ReadsBack.array {items : List Json} (hplain : ∀ v ∈ items, v.Plain)
    (hitems : ∀ v ∈ items, v.ReadsBack) : (Json.array items).ReadsBack := by
  intro depth rest hdepth _
  obtain ⟨depth, rfl⟩ := (Plain.array hplain).exists_depth hdepth
  cases items with
  | nil => rfl
  | cons v vs =>
      obtain ⟨hv, hplain⟩ := List.forall_mem_cons.1 hplain
      obtain ⟨hvback, hitems⟩ := List.forall_mem_cons.1 hitems
      rw [write, List.length_cons, List.length_append] at hdepth
      have hfirst := hvback depth (writeItems vs ++ rest) (by omega) (closes_writeItems vs rest)
      have hblanks := hv.skipBlanks_write (writeItems vs ++ rest)
      obtain ⟨c, cs, hcons, hc⟩ := hv.exists_write_eq_cons
      have hbracket : c ≠ ']' := by
        rintro rfl
        simp [Opens] at hc
      rw [hcons, List.cons_append] at hfirst hblanks
      rw [write, List.cons_append, List.append_assoc, readValue, hcons, List.cons_append, hblanks]
      simp [hbracket, hfirst, skipBlanks_of_closes (closes_writeItems vs rest),
        readItems_write hplain hitems depth rest (by omega)]

/-- An object is read back if the values of its members are. -/
lemma ReadsBack.object {members : List (Option String × Json)} (hplain : ∀ m ∈ members, m.2.Plain)
    (hmembers : ∀ m ∈ members, m.2.ReadsBack) : (Json.object members).ReadsBack := by
  intro depth rest hdepth _
  obtain ⟨depth, rfl⟩ := (Plain.object hplain).exists_depth hdepth
  cases members with
  | nil => rfl
  | cons m ms =>
      obtain ⟨key, v⟩ := m
      obtain ⟨hv : v.Plain, hplain⟩ := List.forall_mem_cons.1 hplain
      obtain ⟨hvback : v.ReadsBack, hmembers⟩ := List.forall_mem_cons.1 hmembers
      have hlength : (writeString key ++ ':' :: write v).length + (writeMembers ms).length
          ≤ depth := by
        simp only [write, List.length_cons, List.length_append] at hdepth ⊢
        omega
      have hfirst : readMember depth (writeString key ++ ':' :: (write v ++ (writeMembers ms ++ rest)))
          = some ((key, v), writeMembers ms ++ rest) :=
        readMember_write key hv hvback (closes_writeMembers ms rest) (by omega)
      obtain ⟨literal, hliteral, -⟩ := readString_write key []
      have hquote : ∀ cs : List Char, skipBlanks ('"' :: cs) = '"' :: cs :=
        skipBlanks_cons (by decide)
      rw [hliteral, List.cons_append] at hfirst
      rw [write, List.cons_append, List.append_assoc, List.cons_append, List.append_assoc,
        readValue, hliteral, List.cons_append, hquote]
      simp [hfirst, skipBlanks_of_closes (closes_writeMembers ms rest),
        readMembers_write hplain hmembers depth rest (by omega)]

/-- **A plain value is read back**, by induction on it: an item or a member has less text. -/
theorem Plain.readsBack {j : Json} (h : j.Plain) : j.ReadsBack := by
  induction h with
  | null =>
      intro depth rest hdepth _
      obtain ⟨depth, rfl⟩ := Plain.null.exists_depth hdepth
      rfl
  | bool b =>
      intro depth rest hdepth _
      obtain ⟨depth, rfl⟩ := (Plain.bool b).exists_depth hdepth
      cases b <;> rfl
  | integer n =>
      intro depth rest hdepth hrest
      obtain ⟨depth, rfl⟩ := (Plain.integer n).exists_depth hdepth
      obtain ⟨c, cs, hcons, hc⟩ := exists_writeInteger_eq_cons n
      have hnumber := readNumber_write n hrest.endsNumber
      rw [hcons, List.cons_append] at hnumber
      rw [write, hcons, List.cons_append, readValue_number hc, hnumber]
  | string s =>
      intro depth rest hdepth _
      obtain ⟨depth, rfl⟩ := (Plain.string s).exists_depth hdepth
      obtain ⟨literal, hliteral, hread⟩ := readString_write s rest
      rw [write, hliteral, List.cons_append, readValue, hread]
      rfl
  | array hplain ih => exact .array hplain ih
  | object hplain ih => exact .object hplain ih

/-- **A plain value is read back from its text.** -/
theorem parse?_render {j : Json} (h : j.Plain) : parse? j.render = some j := by
  have hcloses : Closes [] := fun c hc => nomatch hc
  have hread := h.readsBack ((write j).length + 1) [] (Nat.le_succ _) hcloses
  have hblanks := h.skipBlanks_write []
  rw [List.append_nil] at hread hblanks
  rw [parse?, render, String.toList_ofList, parseChars?, hblanks, hread]
  rfl

end Netscribe.Json
