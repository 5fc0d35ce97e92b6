import Netscribe.Hdl.Dialect
/-!
# Remark blocks

A framed comment of 80 columns, indentation included, whose text is filled word by word.

* `Dialect.remark` — the lines of the block.
-/

namespace Netscribe.Dialect

/-- The width of a remark block. -/
def lineWidth : Nat := 80

/-- The first line of a block whose frame is `fill` columns wide. -/
def remarkTop (fill : Nat) : Dialect → String
  | .vhdl => String.ofList (List.replicate fill '-')
  | .verilog => String.ofList ('/' :: List.replicate (fill - 1) '*')

/-- The last line of a block whose frame is `fill` columns wide. -/
def remarkBottom (fill : Nat) : Dialect → String
  | .vhdl => String.ofList (List.replicate fill '-')
  | .verilog => String.ofList (List.replicate (fill - 1) '*' ++ ['/'])

/-- What stands left of a line of text. -/
def remarkLeft : Dialect → String
  | .vhdl => "-- "
  | .verilog => "** "

/-- What stands right of a line of text. -/
def remarkRight : Dialect → String
  | .vhdl => " --"
  | .verilog => " **"

/-- The columns left for text, at least ten. -/
def remarkInner (indent : Nat) : Nat :=
  max (lineWidth - (indent + 6)) 10

/-- The columns of the frame, at least two. -/
def remarkFill (indent : Nat) : Nat :=
  max (lineWidth - indent) 2

/-- **A remark block** with a text, indented by some columns. -/
def remark (d : Dialect) (text : String) (indent : Nat) : List String :=
  let lead := Text.spaces indent
  let inner := remarkInner indent
  let middle := (Text.wrap inner text).map fun line =>
    lead ++ d.remarkLeft ++ Text.padRight inner line ++ d.remarkRight
  (lead ++ d.remarkTop (remarkFill indent)) :: (middle ++ [lead ++ d.remarkBottom (remarkFill indent)])

end Netscribe.Dialect
