import Netscribe.Json.Basic
/-!
# Writing JSON

Two layouts of the same value: compact, without any blank, and indented by two spaces per level.
Quotes, backslashes and control characters are escaped; every other character is written raw.

* `Json.write`, `Json.render` — the compact layout.
* `Json.writeIndented`, `Json.renderIndented` — the indented layout.
-/

namespace Netscribe.Json

/-- The four hexadecimal digits of an escaped control character. -/
def hexEscape (n : Nat) : List Char :=
  ['\\', 'u', '0', '0', Nat.digitChar (n / 16), Nat.digitChar (n % 16)]

/-- One character inside a string literal. -/
def writeChar (c : Char) : List Char :=
  if c = '"' then ['\\', '"']
  else if c = '\\' then ['\\', '\\']
  else if c.toNat = 0x08 then ['\\', 'b']
  else if c.toNat = 0x0C then ['\\', 'f']
  else if c = '\n' then ['\\', 'n']
  else if c = '\r' then ['\\', 'r']
  else if c = '\t' then ['\\', 't']
  else if c.toNat < 0x20 then hexEscape c.toNat
  else [c]

/-- A string literal; a literal that denotes no text is written as an unpaired surrogate. -/
def writeString : Option String → List Char
  | some s => '"' :: (s.toList.flatMap writeChar ++ ['"'])
  | none => "\"\\ud800\"".toList

/-- The decimal digits of an integer, after its sign. -/
def writeInteger : Int → List Char
  | .ofNat n => Nat.toDigits 10 n
  | .negSucc n => '-' :: Nat.toDigits 10 (n + 1)

mutual

/-- **The compact text** of a value. -/
def write : Json → List Char
  | .null => "null".toList
  | .bool true => "true".toList
  | .bool false => "false".toList
  | .integer n => writeInteger n
  | .decimal lexeme => lexeme
  | .string s => writeString s
  | .array [] => ['[', ']']
  | .array (v :: vs) => '[' :: (write v ++ writeItems vs)
  | .object [] => ['\x7b', '\x7d']
  | .object ((k, v) :: ms) => '\x7b' :: (writeString k ++ ':' :: (write v ++ writeMembers ms))

/-- The items after the first, and the closing bracket. -/
def writeItems : List Json → List Char
  | [] => [']']
  | v :: vs => ',' :: (write v ++ writeItems vs)

/-- The members after the first, and the closing brace. -/
def writeMembers : List (Option String × Json) → List Char
  | [] => ['\x7d']
  | (k, v) :: ms => ',' :: (writeString k ++ ':' :: (write v ++ writeMembers ms))

end

/-- The compact text as a string. -/
def render (j : Json) : String :=
  String.ofList (write j)

/-- A line feed and the indentation of a level. -/
def newLine (level : Nat) : List Char :=
  '\n' :: List.replicate (2 * level) ' '

mutual

/-- **The indented text** of a value that stands at a level; empty containers stay on one line. -/
def writeIndented (level : Nat) : Json → List Char
  | .array [] => ['[', ']']
  | .array (v :: vs) =>
    '[' :: (newLine (level + 1) ++ writeIndented (level + 1) v ++ writeIndentedItems level vs)
  | .object [] => ['\x7b', '\x7d']
  | .object ((k, v) :: ms) =>
    '\x7b' :: (newLine (level + 1) ++ writeString k ++ ':' :: ' ' ::
      (writeIndented (level + 1) v ++ writeIndentedMembers level ms))
  | .null => "null".toList
  | .bool true => "true".toList
  | .bool false => "false".toList
  | .integer n => writeInteger n
  | .decimal lexeme => lexeme
  | .string s => writeString s

/-- The items after the first of an array that stands at a level. -/
def writeIndentedItems (level : Nat) : List Json → List Char
  | [] => newLine level ++ [']']
  | v :: vs =>
    ',' :: (newLine (level + 1) ++ writeIndented (level + 1) v ++ writeIndentedItems level vs)

/-- The members after the first of an object that stands at a level. -/
def writeIndentedMembers (level : Nat) : List (Option String × Json) → List Char
  | [] => newLine level ++ ['\x7d']
  | (k, v) :: ms =>
    ',' :: (newLine (level + 1) ++ writeString k ++ ':' :: ' ' ::
      (writeIndented (level + 1) v ++ writeIndentedMembers level ms))

end

/-- The indented text as a string. -/
def renderIndented (j : Json) : String :=
  String.ofList (writeIndented 0 j)

end Netscribe.Json
