/-!
# Identifiers from labels

A user label is free text; a generated file needs a name that both hardware languages read as one
word.  `Identifier.ofLabel` makes that name, character by character, so that the same label always
gives the same identifier.

* `Identifier.isWordChar` — the characters an identifier may hold.
* `Identifier.ofLabel` — the identifier of a label; the empty label stays empty.
-/

namespace Netscribe.Identifier

/-- ASCII letters, ASCII digits and the underscore. -/
def isWordChar (c : Char) : Bool :=
  c.isAlphanum || c == '_'

/-- Keeps a word character and replaces any other by an underscore. -/
def wordChar (c : Char) : Char :=
  if isWordChar c then c else '_'

/-- What stands before a label that starts with a digit. -/
def digitLead : List Char := ['L', '_']

/-- The identifier's characters: one per character of the label, after `digitLead` where the label
starts with a digit. -/
def ofChars : List Char → List Char
  | [] => []
  | c :: cs => (if c.isDigit then digitLead else []) ++ (c :: cs).map wordChar

/-- **The identifier of a label.** -/
def ofLabel (label : String) : String :=
  String.ofList (ofChars label.toList)

@[simp] theorem ofChars_nil : ofChars [] = [] := rfl

@[simp] theorem toList_ofLabel (label : String) :
    (ofLabel label).toList = ofChars label.toList := by
  simp [ofLabel]

@[simp] theorem ofLabel_empty : ofLabel "" = "" := rfl

end Netscribe.Identifier
