import Netscribe.Text.Hexadecimal
/-!
# Texts in TOML

Texts stand in single or double quotes, on one line or, with three quotes, on several.  Double
quotes allow escapes.  Each function takes the characters after the opening quotes and gives the
text and what follows the closing ones.

* `readBasic`, `readLiteral` — texts on one line.
* `readBasicLines`, `readLiteralLines` — texts on several lines.
* `readText` — any text, from its opening quote on.
-/

namespace Netscribe.Toml

/-- A character that may stand raw in a comment or a text: no control character except a tab. -/
def isPlain (c : Char) : Bool :=
  c == '\t' || (0x20 ≤ c.toNat && c.toNat != 0x7F)

/-- A blank within a line. -/
def isBlank (c : Char) : Bool :=
  c == ' ' || c == '\t'

/-! ## Escapes -/

/-- What a one-letter escape stands for. -/
def shortEscape? : Char → Option Char
  | 'b' => some '\x08'
  | 't' => some '\t'
  | 'n' => some '\n'
  | 'f' => some '\x0c'
  | 'r' => some '\r'
  | '"' => some '"'
  | '\\' => some '\\'
  | _ => none

/-- The character that hexadecimal digits name; a surrogate is none. -/
def scalar? (digits : List Char) : Option Char := do
  let n ← Hexadecimal.number? digits
  if h : n.isValidChar then some (Char.ofNatAux n h) else none

/-! ## Texts on one line -/

/-- Reads up to a closing double quote. -/
def readBasic : List Char → Option (List Char × List Char)
  | [] => none
  | '"' :: rest => some ([], rest)
  | '\\' :: 'u' :: a :: b :: c :: d :: rest => do
    let char ← scalar? [a, b, c, d]
    let (content, rest) ← readBasic rest
    return (char :: content, rest)
  | '\\' :: 'U' :: a :: b :: c :: d :: e :: f :: g :: h :: rest => do
    let char ← scalar? [a, b, c, d, e, f, g, h]
    let (content, rest) ← readBasic rest
    return (char :: content, rest)
  | '\\' :: e :: rest => do
    let char ← shortEscape? e
    let (content, rest) ← readBasic rest
    return (char :: content, rest)
  | c :: rest =>
    if isPlain c && c != '\\' then do
      let (content, rest) ← readBasic rest
      return (c :: content, rest)
    else none

/-- Reads up to a closing single quote. -/
def readLiteral : List Char → Option (List Char × List Char)
  | [] => none
  | '\'' :: rest => some ([], rest)
  | c :: rest =>
    if isPlain c then do
      let (content, rest) ← readLiteral rest
      return (c :: content, rest)
    else none

/-! ## Texts on several lines -/

/-- Drops the line break right after opening quotes. -/
def dropLineBreak : List Char → List Char
  | '\n' :: rest => rest
  | '\r' :: '\n' :: rest => rest
  | cs => cs

/-- Whether blanks are being dropped after a backslash at the end of a line. -/
inductive Folding where
  | off
  /-- They are, and the line must still end. -/
  | beforeBreak
  /-- They are, and so are further line breaks. -/
  | afterBreak
  deriving DecidableEq

/-- Reads up to three closing double quotes.  Up to two more quotes right before them belong to the
text, every line break becomes a line feed, and a backslash at the end of a line drops the blanks
and line breaks after it. -/
def readBasicLines : Folding → List Char → Option (List Char × List Char)
  | _, [] => none
  | .beforeBreak, '\n' :: rest => readBasicLines .afterBreak rest
  | .beforeBreak, '\r' :: '\n' :: rest => readBasicLines .afterBreak rest
  | .beforeBreak, c :: rest => if isBlank c then readBasicLines .beforeBreak rest else none
  | .off, '"' :: '"' :: '"' :: '"' :: '"' :: rest => some (['"', '"'], rest)
  | .off, '"' :: '"' :: '"' :: '"' :: rest => some (['"'], rest)
  | .off, '"' :: '"' :: '"' :: rest => some ([], rest)
  | .off, '\\' :: 'u' :: a :: b :: c :: d :: rest => do
    let char ← scalar? [a, b, c, d]
    let (content, rest) ← readBasicLines .off rest
    return (char :: content, rest)
  | .off, '\\' :: 'U' :: a :: b :: c :: d :: e :: f :: g :: h :: rest => do
    let char ← scalar? [a, b, c, d, e, f, g, h]
    let (content, rest) ← readBasicLines .off rest
    return (char :: content, rest)
  | .off, '\\' :: '\n' :: rest => readBasicLines .afterBreak rest
  | .off, '\\' :: '\r' :: '\n' :: rest => readBasicLines .afterBreak rest
  | .off, '\\' :: e :: rest =>
    if isBlank e then readBasicLines .beforeBreak rest
    else do
      let char ← shortEscape? e
      let (content, rest) ← readBasicLines .off rest
      return (char :: content, rest)
  | .off, '\r' :: '\n' :: rest => do
    let (content, rest) ← readBasicLines .off rest
    return ('\n' :: content, rest)
  | .off, c :: rest =>
    if c == '\n' || isPlain c && c != '\\' then do
      let (content, rest) ← readBasicLines .off rest
      return (c :: content, rest)
    else none
  | .afterBreak, '\n' :: rest => readBasicLines .afterBreak rest
  | .afterBreak, '\r' :: '\n' :: rest => readBasicLines .afterBreak rest
  | .afterBreak, c :: rest =>
    if isBlank c then readBasicLines .afterBreak rest else readBasicLines .off (c :: rest)
termination_by folding cs => (cs.length, if folding = .afterBreak then 1 else 0)

/-- Reads up to three closing single quotes, by the same rules but without escapes. -/
def readLiteralLines : List Char → Option (List Char × List Char)
  | [] => none
  | '\'' :: '\'' :: '\'' :: '\'' :: '\'' :: rest => some (['\'', '\''], rest)
  | '\'' :: '\'' :: '\'' :: '\'' :: rest => some (['\''], rest)
  | '\'' :: '\'' :: '\'' :: rest => some ([], rest)
  | '\r' :: '\n' :: rest => do
    let (content, rest) ← readLiteralLines rest
    return ('\n' :: content, rest)
  | c :: rest =>
    if c == '\n' || isPlain c then do
      let (content, rest) ← readLiteralLines rest
      return (c :: content, rest)
    else none

/-- **Reads a text** from its opening quote on. -/
def readText : List Char → Option (List Char × List Char)
  | '"' :: '"' :: '"' :: rest => readBasicLines .off (dropLineBreak rest)
  | '"' :: rest => readBasic rest
  | '\'' :: '\'' :: '\'' :: rest => readLiteralLines (dropLineBreak rest)
  | '\'' :: rest => readLiteral rest
  | _ => none

end Netscribe.Toml
