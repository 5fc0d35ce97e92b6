import Netscribe.Toml.Date
import Netscribe.Toml.Number
import Netscribe.Toml.Table
import Netscribe.Toml.Text
/-!
# Reading TOML

The grammar of TOML 1.0.  A step takes the characters that are left and gives back what it read and
the rest.  Every recursive step consumes a character, so the length of the text bounds the depth of
the recursion; arrays and inline tables may be nested only so deep, and a key may have only so many
parts.

* `readKey`, `readValue` — keys and values.
* `readLines` — the lines of a document.
* `Toml.parse?` — the table of a text.
-/

namespace Netscribe.Toml

/-- Arrays and inline tables are nested less deep than this, and keys have fewer parts. -/
def nestingLimit : Nat := 80

/-! ## Blanks, comments and line ends -/

def skipBlanks (cs : List Char) : List Char :=
  cs.dropWhile isBlank

/-- Drops a comment, where there is one. -/
def skipComment : List Char → List Char
  | '#' :: rest => rest.dropWhile isPlain
  | cs => cs

def readLineBreak : List Char → Option (List Char)
  | '\n' :: rest => some rest
  | '\r' :: '\n' :: rest => some rest
  | _ => none

/-- Drops what may follow on a line: blanks, a comment and the line break, which the last line of a
text need not have. -/
def readLineEnd (cs : List Char) : Option (List Char) :=
  match skipComment (skipBlanks cs) with
  | [] => some []
  | rest => readLineBreak rest

/-- Drops blanks, line breaks and comments with their line breaks, as between the items of an
array.  Each round drops a line break, of which there are at most `rounds`. -/
def skipGap : (rounds : Nat) → List Char → List Char
  | 0, cs => cs
  | rounds + 1, cs =>
    match readLineBreak (skipComment (skipBlanks cs)) with
    | some rest => skipGap rounds rest
    | none => skipBlanks cs

/-! ## Keys -/

/-- A character of a key without quotes. -/
def isBare (c : Char) : Bool :=
  c.isAlphanum || c == '_' || c == '-'

/-- Reads one part of a key. -/
def readPart : List Char → Option (String × List Char)
  | '"' :: rest => (readBasic rest).map fun (chars, rest) => (String.ofList chars, rest)
  | '\'' :: rest => (readLiteral rest).map fun (chars, rest) => (String.ofList chars, rest)
  | cs =>
    match cs.takeWhile isBare with
    | [] => none
    | bare => some (String.ofList bare, cs.dropWhile isBare)

/-- Reads the parts of a key, of which there are at most `parts`, and the blanks around them. -/
def readParts : (parts : Nat) → List Char → Option (List String × List Char)
  | 0, _ => none
  | parts + 1, cs => do
    let (part, rest) ← readPart (skipBlanks cs)
    match skipBlanks rest with
    | '.' :: rest =>
      let (more, rest) ← readParts parts rest
      return (part :: more, rest)
    | rest => return ([part], rest)

/-- **Reads a key** and the blanks around it. -/
def readKey (cs : List Char) : Option (List String × List Char) :=
  readParts (nestingLimit - 1) cs

/-- Reads a key and the sign after it. -/
def readKeySign (cs : List Char) : Option (List String × List Char) := do
  let (key, rest) ← readKey cs
  match rest with
  | '=' :: rest => return (key, skipBlanks rest)
  | _ => none

/-! ## Values -/

/-- Reads a value that is neither an array nor a table. -/
def readScalar (cs : List Char) : Option (Toml × List Char) :=
  match cs with
  | 't' :: 'r' :: 'u' :: 'e' :: rest => some (.bool true, rest)
  | 'f' :: 'a' :: 'l' :: 's' :: 'e' :: rest => some (.bool false, rest)
  | '"' :: _ => (readText cs).map fun (chars, rest) => (.text (String.ofList chars), rest)
  | '\'' :: _ => (readText cs).map fun (chars, rest) => (.text (String.ofList chars), rest)
  | _ =>
    match readDateTime cs with
    | some rest => some (.dateTime (consumed cs rest), rest)
    | none => readNumber cs

mutual

/-- **Reads a value** that starts at the first character; `room` says how much deeper it may be
nested. -/
def readValue : (depth room : Nat) → List Char → Option (Toml × List Char)
  | 0, _, _ => none
  | depth + 1, room, cs =>
    match room, cs with
    | 0, '[' :: _ => none
    | 0, '\x7b' :: _ => none
    | room + 1, '[' :: rest => do
      let (items, rest) ← readItems depth room (skipGap rest.length rest)
      return (.array items, rest)
    | room + 1, '\x7b' :: rest =>
      match skipBlanks rest with
      | '\x7d' :: rest => some (.table [], rest)
      | rest => do
        let (lines, rest) ← readInline depth room rest
        return (← ofInline? lines, rest)
    | _, cs => readScalar cs

/-- Reads the items of an array and the closing bracket; a comma may follow the last item. -/
def readItems : (depth room : Nat) → List Char → Option (List Toml × List Char)
  | 0, _, _ => none
  | depth + 1, room, cs =>
    match cs with
    | ']' :: rest => some ([], rest)
    | cs => do
      let (item, rest) ← readValue depth room cs
      match skipGap rest.length rest with
      | ',' :: rest =>
        let (items, rest) ← readItems depth room (skipGap rest.length rest)
        return (item :: items, rest)
      | ']' :: rest => return ([item], rest)
      | _ => none

/-- Reads the keys and values between braces and the closing brace. -/
def readInline : (depth room : Nat) → List Char → Option (List (List String × Toml) × List Char)
  | 0, _, _ => none
  | depth + 1, room, cs => do
    let (key, rest) ← readKeySign cs
    let (value, rest) ← readValue depth room rest
    match skipBlanks rest with
    | ',' :: rest =>
      let (lines, rest) ← readInline depth room rest
      return ((key, value) :: lines, rest)
    | '\x7d' :: rest => return ([(key, value)], rest)
    | _ => none

end

/-! ## Documents -/

def readClosing : (brackets : Nat) → List Char → Option (List Char)
  | 0, cs => some cs
  | brackets + 1, ']' :: rest => readClosing brackets rest
  | _ + 1, _ => none

/-- Reads a header after its first bracket, to the end of its line. -/
def readHeader (cs : List Char) : Option (Line × List Char) := do
  let (isArray, cs) :=
    match cs with
    | '[' :: rest => (true, rest)
    | cs => (false, cs)
  let (path, rest) ← readKey cs
  let rest ← readClosing (if isArray then 2 else 1) rest
  return (.header isArray path, ← readLineEnd rest)

/-- Reads a key and its value, to the end of the line. -/
def readEntry (cs : List Char) : Option (Line × List Char) := do
  let (key, rest) ← readKeySign cs
  let (value, rest) ← readValue (rest.length + 1) (nestingLimit - 1) rest
  return (.entry key value, ← readLineEnd rest)

/-- **Reads the lines of a document**; empty lines and comments say nothing. -/
def readLines : (rounds : Nat) → List Char → Option (List Line)
  | 0, _ => none
  | rounds + 1, cs =>
    match skipGap cs.length cs with
    | [] => some []
    | '#' :: rest =>
      match rest.dropWhile isPlain with
      | [] => some []
      | _ => none
    | '[' :: rest => do
      let (line, rest) ← readHeader rest
      return line :: (← readLines rounds rest)
    | rest => do
      let (line, rest) ← readEntry rest
      return line :: (← readLines rounds rest)

/-- Drops the mark that may stand in front of a text. -/
def dropMark : List Char → List Char
  | '\ufeff' :: rest => rest
  | cs => cs

/-- **The table of a text**, if it is a document. -/
def parse? (text : String) : Option Toml := do
  let cs := dropMark text.toList
  ofLines? (← readLines (cs.length + 1) cs)

end Netscribe.Toml
