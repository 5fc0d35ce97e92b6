/-!
# TOML values

What a TOML document denotes: a table.  How a table was written, with a header, dotted keys or
braces, is no longer visible, and neither is which kind of quotes a text had.

* `Toml` — the values.
-/

namespace Netscribe

/-- **A TOML value.** -/
inductive Toml where
  | text (value : String)
  | integer (value : Int64)
  /-- A number with fraction or exponent, an infinity or no number, as it is written. -/
  | float (lexeme : List Char)
  | bool (value : Bool)
  /-- A date, a time or both, as it is written. -/
  | dateTime (lexeme : List Char)
  | array (items : List Toml)
  /-- A table; no key occurs twice. -/
  | table (entries : List (String × Toml))

instance : Inhabited Toml := ⟨.table []⟩

end Netscribe
