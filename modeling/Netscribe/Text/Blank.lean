/-!
# Blank characters

The code points with the Unicode property `White_Space`.  Remark text is split into words at these,
not only at the ASCII ones.

* `Char.isBlank` — the property.
* `splitWords` — the maximal runs of characters without it.
-/

namespace Netscribe.Text

/-- The ranges of code points with the property `White_Space`, both ends included. -/
def blankRanges : List (Nat × Nat) :=
  [(0x09, 0x0D), (0x20, 0x20), (0x85, 0x85), (0xA0, 0xA0), (0x1680, 0x1680), (0x2000, 0x200A),
   (0x2028, 0x2029), (0x202F, 0x202F), (0x205F, 0x205F), (0x3000, 0x3000)]

/-- **A blank character** has the Unicode property `White_Space`. -/
def isBlank (c : Char) : Bool :=
  blankRanges.any fun (lo, hi) => lo ≤ c.toNat && c.toNat ≤ hi

/-- Splits off words while `word` holds, reversed, the characters of the word being read. -/
def splitWordsFrom (word : List Char) : List Char → List String
  | [] => if word.isEmpty then [] else [String.ofList word.reverse]
  | c :: cs =>
    if isBlank c then
      if word.isEmpty then splitWordsFrom [] cs
      else String.ofList word.reverse :: splitWordsFrom [] cs
    else splitWordsFrom (c :: word) cs

/-- **The words of a text**: its maximal runs of characters that are not blank, in order. -/
def splitWords (text : String) : List String :=
  splitWordsFrom [] text.toList

end Netscribe.Text
