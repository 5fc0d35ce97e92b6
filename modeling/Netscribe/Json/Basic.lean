/-!
# JSON values

The value that a JSON text denotes, with as much of its spelling as a reader of records needs: the
order and repetition of members is kept, and whether a number was written as a plain integer.

* `Json` — the values.
* `Json.text`, `Json.natural`, `Json.record` — values as the program makes them.
-/

namespace Netscribe

/-- **A JSON value.** -/
inductive Json where
  | null
  | bool (value : Bool)
  /-- A number written without fraction and exponent, minus zero excepted. -/
  | integer (value : Int)
  /-- Any other number, as it is written. -/
  | decimal (lexeme : List Char)
  /-- A string; `none` for a well-formed literal that denotes no text, since it holds an escaped
  surrogate without its partner. -/
  | string (value : Option String)
  | array (items : List Json)
  | object (members : List (Option String × Json))

namespace Json

instance : Inhabited Json := ⟨.null⟩

/-- The string value of a text. -/
def text (s : String) : Json :=
  .string (some s)

/-- The number of a natural number. -/
def natural (n : Nat) : Json :=
  .integer n

/-- The object with the given members. -/
def record (members : List (String × Json)) : Json :=
  .object (members.map fun m => (some m.1, m.2))

/-- The array of the strings of some texts. -/
def texts (lines : List String) : Json :=
  .array (lines.map text)

/-- The value of something that may be missing. -/
def nullable {α : Type} (encode : α → Json) : Option α → Json
  | none => .null
  | some a => encode a

end Json

end Netscribe
