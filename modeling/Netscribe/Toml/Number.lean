import Netscribe.Text.Hexadecimal
import Netscribe.Toml.Basic
/-!
# Numbers in TOML

Decimal integers with a sign, integers of base sixteen, eight and two without, and floats.  Single
underscores may stand between digits.  An integer must fit 64 bits, and a float must not be so
great that it would be read as infinity.

* `readDigits` — digits with underscores between them.
* `readNumber` — any number.
-/

namespace Netscribe.Toml

/-! ## Digits -/

/-- Reads what follows a digit: further digits, each one possibly after an underscore. -/
def readDigitsAfter (isDigit : Char → Bool) : List Char → Option (List Char × List Char)
  | '_' :: c :: rest =>
    if isDigit c then (readDigitsAfter isDigit rest).map fun (digits, rest) => (c :: digits, rest)
    else none
  | ['_'] => none
  | c :: rest =>
    if isDigit c then (readDigitsAfter isDigit rest).map fun (digits, rest) => (c :: digits, rest)
    else some ([], c :: rest)
  | [] => some ([], [])

/-- **Reads digits**, at least one, without their underscores. -/
def readDigits (isDigit : Char → Bool) : List Char → Option (List Char × List Char)
  | c :: rest =>
    if isDigit c then (readDigitsAfter isDigit rest).map fun (digits, rest) => (c :: digits, rest)
    else none
  | [] => none

/-- Reads the digits in front of a fraction: nothing follows a leading zero. -/
def readWhole : List Char → Option (List Char × List Char)
  | '0' :: rest => some (['0'], rest)
  | cs => readDigits Char.isDigit cs

/-! ## Integers -/

/-- The integer of a magnitude, where it fits 64 bits. -/
def integer? (negative : Bool) (magnitude : Nat) : Option Toml :=
  let n : Int := if negative then -magnitude else magnitude
  if Int64.minValue.toInt ≤ n ∧ n ≤ Int64.maxValue.toInt then some (.integer (Int64.ofInt n))
  else none

/-- Reads an integer of another base, after the letter that names the base. -/
def readBased (base : Nat) (cs : List Char) : Option (Toml × List Char) := do
  let isDigit (c : Char) := (Hexadecimal.digit? c).any (· < base)
  let (digits, rest) ← readDigits isDigit cs
  let values ← digits.mapM Hexadecimal.digit?
  return (← integer? false (values.foldl (fun n d => base * n + d) 0), rest)

/-! ## Floats -/

/-- The least number that is read as infinity: halfway between the greatest finite float and the
power of two above it. -/
def floatBound : Nat :=
  Nat.pow 2 1024 - Nat.pow 2 970

/-- Are some digits, times ten to the power of an exponent, read as infinity?  Exponents that
decide the question alone are not computed with. -/
def overflows (digits : List Char) (exponent : Int) : Bool :=
  let digits := digits.dropWhile (· == '0')
  let magnitude := Nat.ofDigitChars 10 digits 0
  let places := exponent + digits.length
  if digits.isEmpty || places < 300 then false
  else if 320 < places then true
  else if 0 ≤ exponent then floatBound ≤ magnitude * Nat.pow 10 exponent.toNat
  else floatBound * Nat.pow 10 (-exponent).toNat ≤ magnitude

/-- The fraction of a float: its digits. -/
def readFraction : List Char → Option (List Char × List Char)
  | '.' :: rest => readDigits Char.isDigit rest
  | cs => some ([], cs)

/-- The sign in front of a number or an exponent; is it negative? -/
def readSign : List Char → Bool × List Char
  | '+' :: rest => (false, rest)
  | '-' :: rest => (true, rest)
  | cs => (false, cs)

/-- The exponent of a float. -/
def readExponent : List Char → Option (Int × List Char)
  | [] => some (0, [])
  | c :: rest =>
    if c == 'e' || c == 'E' then do
      let (negative, rest) := readSign rest
      let (digits, rest) ← readDigits Char.isDigit rest
      let magnitude := Nat.ofDigitChars 10 digits 0
      return (if negative then -magnitude else magnitude, rest)
    else some (0, c :: rest)

/-- The characters that were read. -/
def consumed (cs rest : List Char) : List Char :=
  cs.take (cs.length - rest.length)

/-- Reads a decimal integer or a float, after its sign; `cs` starts at the sign. -/
def readDecimal (cs : List Char) (negative : Bool) (unsigned : List Char) :
    Option (Toml × List Char) := do
  let (whole, afterWhole) ← readWhole unsigned
  let (fraction, afterFraction) ← readFraction afterWhole
  let (exponent, rest) ← readExponent afterFraction
  if rest.length = afterWhole.length then
    return (← integer? negative (Nat.ofDigitChars 10 whole 0), rest)
  else if !negative && overflows (whole ++ fraction) (exponent - fraction.length) then none
  else some (.float (consumed cs rest), rest)

/-- Reads a number after its sign. -/
def readUnsigned (cs : List Char) (negative : Bool) : List Char → Option (Toml × List Char)
  | 'i' :: 'n' :: 'f' :: rest => some (.float (consumed cs rest), rest)
  | 'n' :: 'a' :: 'n' :: rest => some (.float (consumed cs rest), rest)
  | unsigned => readDecimal cs negative unsigned

/-- **Reads a number.** -/
def readNumber : List Char → Option (Toml × List Char)
  | '0' :: 'x' :: rest => readBased 16 rest
  | '0' :: 'o' :: rest => readBased 8 rest
  | '0' :: 'b' :: rest => readBased 2 rest
  | cs =>
    let (negative, unsigned) := readSign cs
    readUnsigned cs negative unsigned

end Netscribe.Toml
