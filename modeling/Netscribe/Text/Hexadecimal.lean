/-!
# Hexadecimal digits

* `Hexadecimal.digit?` — the value of a digit of either case.
* `Hexadecimal.number?` — the number that digits name.
-/

namespace Netscribe.Hexadecimal

/-- **The value of a digit.** -/
def digit? (c : Char) : Option Nat :=
  if c.isDigit then some (c.toNat - '0'.toNat)
  else if 'a' ≤ c ∧ c ≤ 'f' then some (c.toNat - 'a'.toNat + 10)
  else if 'A' ≤ c ∧ c ≤ 'F' then some (c.toNat - 'A'.toNat + 10)
  else none

/-- The number of some digits, the highest first, above a number already read. -/
def numberFrom? : (above : Nat) → List Char → Option Nat
  | above, [] => some above
  | above, c :: cs => (digit? c).bind fun d => numberFrom? (16 * above + d) cs

/-- **The number that digits name**; zero for none. -/
def number? (digits : List Char) : Option Nat :=
  numberFrom? 0 digits

end Netscribe.Hexadecimal
