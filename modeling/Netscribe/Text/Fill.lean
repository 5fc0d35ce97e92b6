import Netscribe.Text.Blank
/-!
# Filling lines with words

Greedy filling: a word joins the current line while the line stays within the width, and starts the
next line otherwise.  Widths are UTF-8 byte counts.

* `fillFrom` — the lines made of a started line and the words to come.
* `fill` — the lines of a list of words, one empty line when there are none.
* `wrap` — the filled lines of a text.
* `padRight` — a text made up to a number of characters with spaces.
-/

namespace Netscribe.Text

/-- The lines that continue `line`, which already takes `used` bytes with its separating spaces. -/
def fillFrom (width : Nat) (line : List String) (used : Nat) : List String → List (List String)
  | [] => [line]
  | word :: words =>
    if used + 1 + word.utf8ByteSize > width then
      line :: fillFrom width [word] word.utf8ByteSize words
    else
      fillFrom width (line ++ [word]) (used + 1 + word.utf8ByteSize) words

/-- **Greedy filling.**  A word longer than the width has a line of its own. -/
def fill (width : Nat) : List String → List (List String)
  | [] => [[]]
  | word :: words => fillFrom width [word] word.utf8ByteSize words

/-- The filled lines of a text, words joined by single spaces. -/
def wrap (width : Nat) (text : String) : List String :=
  (fill width (splitWords text)).map (String.intercalate " ")

/-- As many spaces as `count`. -/
def spaces (count : Nat) : String :=
  String.ofList (List.replicate count ' ')

/-- Adds spaces on the right up to `width` characters; longer text is unchanged. -/
def padRight (width : Nat) (text : String) : String :=
  text ++ spaces (width - text.length)

end Netscribe.Text
