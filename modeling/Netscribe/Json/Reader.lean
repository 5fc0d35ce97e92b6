import Netscribe.Json.Basic
import Netscribe.Text.Hexadecimal
/-!
# Reading JSON

The grammar of RFC 8259, without a byte order mark and with nothing but blanks after the value.  A
step takes the characters that are left and gives back what it read and the rest.  Every recursive
step consumes a character, so the length of the text bounds the depth of the recursion.

* `readString`, `readNumber` — the literals.
* `readValue` — a value that starts at the first character.
* `Json.parse?` — a whole text.
-/

namespace Netscribe.Json

/-- Drops the four blank characters of the grammar. -/
def skipBlanks (cs : List Char) : List Char :=
  cs.dropWhile fun c => c == ' ' || c == '\t' || c == '\n' || c == '\r'

/-! ## Strings -/

/-- What a one-letter escape stands for. -/
def shortEscape? : Char → Option Char
  | '"' => some '"'
  | '\\' => some '\\'
  | '/' => some '/'
  | 'b' => some '\x08'
  | 'f' => some '\x0c'
  | 'n' => some '\n'
  | 'r' => some '\r'
  | 't' => some '\t'
  | _ => none

/-- Reads the code units of a string up to its closing quote.  A raw character and a one-letter
escape give their code point, a numeric escape the unit it names. -/
def readUnits : List Char → Option (List Nat × List Char)
  | [] => none
  | '"' :: rest => some ([], rest)
  | '\\' :: 'u' :: a :: b :: c :: d :: rest => do
    let unit ← Hexadecimal.number? [a, b, c, d]
    let (units, rest) ← readUnits rest
    return (unit :: units, rest)
  | '\\' :: e :: rest => do
    let char ← shortEscape? e
    let (units, rest) ← readUnits rest
    return (char.toNat :: units, rest)
  | c :: rest =>
    if c.toNat < 0x20 ∨ c = '\\' then none
    else do
      let (units, rest) ← readUnits rest
      return (c.toNat :: units, rest)

/-- The text of some units: a high surrogate and the low surrogate after it are one character, and
a surrogate alone denotes nothing. -/
def decodeUnits : List Nat → Option (List Char)
  | [] => some []
  | [u] => if 0xD800 ≤ u ∧ u < 0xE000 then none else some [Char.ofNat u]
  | u :: v :: rest =>
    if 0xD800 ≤ u ∧ u < 0xDC00 ∧ 0xDC00 ≤ v ∧ v < 0xE000 then
      (decodeUnits rest).map (Char.ofNat (0x10000 + (u - 0xD800) * 0x400 + (v - 0xDC00)) :: ·)
    else if 0xD800 ≤ u ∧ u < 0xE000 then none
    else (decodeUnits (v :: rest)).map (Char.ofNat u :: ·)

/-- Reads a string literal after its opening quote. -/
def readString (cs : List Char) : Option (Option String × List Char) := do
  let (units, rest) ← readUnits cs
  return ((decodeUnits units).map String.ofList, rest)

/-! ## Numbers -/

/-- The digits at the front and the rest. -/
def spanDigits (cs : List Char) : List Char × List Char :=
  (cs.takeWhile Char.isDigit, cs.dropWhile Char.isDigit)

/-- A fraction, where there is one: a point and at least one digit. -/
def readFraction : List Char → Option (List Char × List Char)
  | '.' :: cs =>
    match spanDigits cs with
    | ([], _) => none
    | (digits, rest) => some ('.' :: digits, rest)
  | cs => some ([], cs)

/-- The sign of an exponent, where there is one. -/
def readExponentSign : List Char → List Char × List Char
  | '+' :: cs => (['+'], cs)
  | '-' :: cs => (['-'], cs)
  | cs => ([], cs)

/-- An exponent, where there is one: its letter, a sign or none, and at least one digit. -/
def readExponent : List Char → Option (List Char × List Char)
  | [] => some ([], [])
  | c :: cs =>
    if c = 'e' ∨ c = 'E' then
      let (sign, cs) := readExponentSign cs
      match spanDigits cs with
      | ([], _) => none
      | (digits, rest) => some (c :: (sign ++ digits), rest)
    else some ([], c :: cs)

/-- The value of a number: an integer when nothing but a sign and digits were written, except that
minus zero is no integer. -/
def numberOf (negative : Bool) (digits extra : List Char) : Json :=
  let magnitude := Nat.ofDigitChars 10 digits 0
  match extra, negative with
  | [], false => .integer magnitude
  | [], true => if magnitude = 0 then .decimal ('-' :: digits) else .integer (-magnitude)
  | _, false => .decimal (digits ++ extra)
  | _, true => .decimal ('-' :: (digits ++ extra))

/-- Reads a number after its sign: no digit may follow a leading zero. -/
def readMagnitude (negative : Bool) (cs : List Char) : Option (Json × List Char) := do
  let (digits, rest) := spanDigits cs
  match digits with
  | [] => none
  | '0' :: _ :: _ => none
  | _ =>
    let (fraction, rest) ← readFraction rest
    let (exponent, rest) ← readExponent rest
    return (numberOf negative digits (fraction ++ exponent), rest)

def readNumber : List Char → Option (Json × List Char)
  | '-' :: cs => readMagnitude true cs
  | cs => readMagnitude false cs

/-! ## Values -/

mutual

/-- **Reads a value** that starts at the first character. -/
def readValue : Nat → List Char → Option (Json × List Char)
  | 0, _ => none
  | depth + 1, cs =>
    match cs with
    | 'n' :: 'u' :: 'l' :: 'l' :: rest => some (.null, rest)
    | 't' :: 'r' :: 'u' :: 'e' :: rest => some (.bool true, rest)
    | 'f' :: 'a' :: 'l' :: 's' :: 'e' :: rest => some (.bool false, rest)
    | '"' :: rest => do
      let (s, rest) ← readString rest
      return (.string s, rest)
    | '[' :: rest =>
      match skipBlanks rest with
      | ']' :: rest => some (.array [], rest)
      | rest => do
        let (v, rest) ← readValue depth rest
        let (vs, rest) ← readItems depth (skipBlanks rest)
        return (.array (v :: vs), rest)
    | '\x7b' :: rest =>
      match skipBlanks rest with
      | '\x7d' :: rest => some (.object [], rest)
      | rest => do
        let (m, rest) ← readMember depth rest
        let (ms, rest) ← readMembers depth (skipBlanks rest)
        return (.object (m :: ms), rest)
    | cs => readNumber cs

/-- Reads the items after the first, and the closing bracket. -/
def readItems : Nat → List Char → Option (List Json × List Char)
  | 0, _ => none
  | depth + 1, cs =>
    match cs with
    | ']' :: rest => some ([], rest)
    | ',' :: rest => do
      let (v, rest) ← readValue depth (skipBlanks rest)
      let (vs, rest) ← readItems depth (skipBlanks rest)
      return (v :: vs, rest)
    | _ => none

/-- Reads a key, a colon and a value. -/
def readMember : Nat → List Char → Option ((Option String × Json) × List Char)
  | 0, _ => none
  | depth + 1, cs =>
    match cs with
    | '"' :: rest => do
      let (key, rest) ← readString rest
      match skipBlanks rest with
      | ':' :: rest =>
        let (v, rest) ← readValue depth (skipBlanks rest)
        return ((key, v), rest)
      | _ => none
    | _ => none

/-- Reads the members after the first, and the closing brace. -/
def readMembers : Nat → List Char → Option (List (Option String × Json) × List Char)
  | 0, _ => none
  | depth + 1, cs =>
    match cs with
    | '\x7d' :: rest => some ([], rest)
    | ',' :: rest => do
      let (m, rest) ← readMember depth (skipBlanks rest)
      let (ms, rest) ← readMembers depth (skipBlanks rest)
      return (m :: ms, rest)
    | _ => none

end

/-- **The value of a text**, where the text is a value with blanks around it. -/
def parseChars? (cs : List Char) : Option Json := do
  let (v, rest) ← readValue (cs.length + 1) (skipBlanks cs)
  if (skipBlanks rest).isEmpty then some v else none

/-- The value of a text. -/
def parse? (text : String) : Option Json :=
  parseChars? text.toList

end Netscribe.Json
