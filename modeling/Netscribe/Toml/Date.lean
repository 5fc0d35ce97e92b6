/-!
# Dates and times in TOML

A date, a time of day, or a date with a time and possibly an offset.  The day must exist in its
month; second sixty stands for a leap second.

* `readDate`, `readTime` — the two parts.
* `readDateTime` — either or both; the characters left, where there is one.
-/

namespace Netscribe.Toml

/-- Reads a number of exactly `count` digits, above a number already read. -/
def readFixed : (count above : Nat) → List Char → Option (Nat × List Char)
  | 0, above, cs => some (above, cs)
  | count + 1, above, c :: cs =>
    if c.isDigit then readFixed count (10 * above + (c.toNat - '0'.toNat)) cs else none
  | _ + 1, _, [] => none

/-- Reads a number of two digits within bounds. -/
def readPair (low high : Nat) (cs : List Char) : Option (Nat × List Char) := do
  let (n, rest) ← readFixed 2 0 cs
  if low ≤ n ∧ n ≤ high then some (n, rest) else none

def expect (c : Char) : List Char → Option (List Char)
  | d :: rest => if d = c then some rest else none
  | [] => none

/-- Is a year a leap year? -/
def isLeapYear (year : Nat) : Bool :=
  year % 4 == 0 && (year % 100 != 0 || year % 400 == 0)

/-- How many days a month has. -/
def daysIn (year month : Nat) : Nat :=
  if month = 2 then if isLeapYear year then 29 else 28
  else if month = 4 ∨ month = 6 ∨ month = 9 ∨ month = 11 then 30
  else 31

/-- **Reads a date**, and gives what follows it. -/
def readDate (cs : List Char) : Option (List Char) := do
  let (year, cs) ← readFixed 4 0 cs
  let (month, cs) ← readPair 1 12 (← expect '-' cs)
  let (day, cs) ← readPair 1 (daysIn year month) (← expect '-' cs)
  let _ := day
  return cs

/-- Reads the fraction of a second, where there is one. -/
def dropSecondFraction : List Char → List Char
  | '.' :: c :: rest => if c.isDigit then rest.dropWhile Char.isDigit else '.' :: c :: rest
  | cs => cs

/-- **Reads a time of day**, and gives what follows it. -/
def readTime (cs : List Char) : Option (List Char) := do
  let (_, cs) ← readPair 0 23 cs
  let (_, cs) ← readPair 0 59 (← expect ':' cs)
  let (_, cs) ← readPair 0 60 (← expect ':' cs)
  return dropSecondFraction cs

/-- Reads an offset from universal time, where there is one. -/
def readOffset : List Char → Option (List Char)
  | [] => some []
  | c :: cs =>
    if c == 'Z' || c == 'z' then some cs
    else if c == '+' || c == '-' then do
      let (_, cs) ← readPair 0 23 cs
      let (_, cs) ← readPair 0 59 (← expect ':' cs)
      return cs
    else some (c :: cs)

/-- Reads the time that may follow a date, after a letter or a blank. -/
def readTimeAfterDate : List Char → Option (List Char)
  | [] => some []
  | c :: cs =>
    if c == 'T' || c == 't' || c == ' ' then
      match readTime cs with
      | some rest => readOffset rest
      | none => some (c :: cs)
    else some (c :: cs)

/-- **Reads a date, a time or both**, and gives what follows. -/
def readDateTime (cs : List Char) : Option (List Char) :=
  match readDate cs with
  | some rest => readTimeAfterDate rest
  | none => readTime cs

end Netscribe.Toml
