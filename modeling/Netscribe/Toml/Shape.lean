import Netscribe.Data.Fields
import Netscribe.Toml.Basic
/-!
# Typed readings of TOML values

Each reading accepts exactly the values of one shape and gives `none` for every other.

* `text?`, `bool?`, `word32?`, `list?` — scalars and arrays.
* `fields?` — records, written as a table or as an array of their fields in order, or as a date or
  time, which has none of them.
* `choice?` — a name, written as a text or as the only key of a table over nothing.
-/

namespace Netscribe.Toml

variable {α : Type}

def text? : Toml → Option String
  | .text s => some s
  | _ => none

def bool? : Toml → Option Bool
  | .bool b => some b
  | _ => none

/-- An integer that fits 32 bits without sign. -/
def word32? : Toml → Option UInt32
  | .integer n =>
    if 0 ≤ n.toInt ∧ n.toInt < UInt32.size then some (UInt32.ofNat n.toInt.toNat) else none
  | _ => none

/-- An array whose items all have one shape. -/
def list? (read : Toml → Option α) : Toml → Option (List α)
  | .array items => items.mapM read
  | _ => none

/-- **The fields of a record.**  What the record does not know is passed over: other keys of a
table, and further items of an array.  A date or time is a record of its own, without any field that
another record knows, so it stands for a record whose fields are all absent. -/
def fields? (names : List String) : Toml → Option (Fields Toml)
  | .table entries => some (.named entries)
  | .array items => some (.listed names items)
  | .dateTime _ => some (.named [])
  | _ => none

/-- A table or an array of nothing. -/
def isEmpty : Toml → Bool
  | .table entries => entries.isEmpty
  | .array items => items.isEmpty
  | _ => false

/-- **A name among several.** -/
def choice? : Toml → Option String
  | .text name => some name
  | .table [(name, contents)] => if contents.isEmpty then some name else none
  | _ => none

end Netscribe.Toml
