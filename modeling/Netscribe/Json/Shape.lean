import Netscribe.Data.Fields
import Netscribe.Json.Basic
/-!
# Typed readings of JSON values

Each reading accepts exactly the values of one shape and gives `none` for every other.

* `text?`, `bool?`, `word16?`, `word32?`, `int64?` — the scalars.
* `list?`, `nullable?` — arrays, and values that may be `null`.
* `fields?` — records, written as an object or as an array of their fields in order.
-/

namespace Netscribe.Json

variable {α : Type}

/-- A string that denotes a text. -/
def text? : Json → Option String
  | .string s => s
  | _ => none

def bool? : Json → Option Bool
  | .bool b => some b
  | _ => none

/-- An integer below a bound and not negative. -/
def naturalBelow? (bound : Nat) : Json → Option Nat
  | .integer (.ofNat n) => if n < bound then some n else none
  | _ => none

/-- An integer that fits 16 bits without sign. -/
def word16? (j : Json) : Option UInt16 :=
  (j.naturalBelow? UInt16.size).map UInt16.ofNat

/-- An integer that fits 32 bits without sign. -/
def word32? (j : Json) : Option UInt32 :=
  (j.naturalBelow? UInt32.size).map UInt32.ofNat

/-- An integer that fits 64 bits with sign. -/
def int64? : Json → Option Int64
  | .integer n =>
    if Int64.minValue.toInt ≤ n ∧ n ≤ Int64.maxValue.toInt then some (Int64.ofInt n) else none
  | _ => none

/-- An array whose items all have one shape. -/
def list? (read : Json → Option α) : Json → Option (List α)
  | .array items => items.mapM read
  | _ => none

/-- A value of one shape, or `null`. -/
def nullable? (read : Json → Option α) : Json → Option (Option α)
  | .null => some none
  | j => (read j).map some

/-- The members of an object whose keys all denote texts. -/
def members? : Json → Option (List (String × Json))
  | .object members => members.mapM fun m => m.1.map (·, m.2)
  | _ => none

/-- **The fields of a record.**  An object may hold members the record does not know, but a known
one only once; an array may hold no more items than the record has fields. -/
def fields? (names : List String) (j : Json) : Option (Fields Json) :=
  match j with
  | .array items => if items.length ≤ names.length then some (.listed names items) else none
  | _ => do
    let members ← j.members?
    if names.all fun name => members.countP (·.1 == name) ≤ 1 then some (.named members) else none

end Netscribe.Json
