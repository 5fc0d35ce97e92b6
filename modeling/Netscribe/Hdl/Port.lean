import Netscribe.Hdl.Dialect
import Netscribe.Netlist.Basic
/-!
# Interfaces

The ports of a definition and the text that declares them.

* `Port` — direction, name and width.
* `Dialect.interface` — the VHDL entity, or the Verilog module header with its declarations.
* `Dialect.componentDeclaration` — what a VHDL architecture declares before it instantiates.
-/

namespace Netscribe

/-- **A port of a definition.**  Width zero is a single wire, like width one. -/
structure Port where
  /-- The direction, seen from the definition. -/
  direction : Direction
  name : String
  width : Nat
  deriving DecidableEq

namespace Dialect

/-- The keyword for a direction. -/
def directionKeyword : Dialect → Direction → String
  | .vhdl, .input => "IN"
  | .vhdl, .output => "OUT"
  | .vhdl, .inout => "INOUT"
  | .verilog, .input => "input"
  | .verilog, .output => "output"
  | .verilog, .inout => "inout"

/-- The VHDL type of a signal. -/
def vhdlType (width : Nat) : String :=
  if width ≤ 1 then "std_logic"
  else "std_logic_vector( " ++ toString (width - 1) ++ " DOWNTO 0 )"

/-- The Verilog range of a signal, with the blank after it. -/
def verilogRange (width : Nat) : String :=
  if width ≤ 1 then "" else "[" ++ toString (width - 1) ++ ":0] "

/-- Writes a list with one lead before the first element and another before the rest, and one end
after the last element and another after the rest. -/
def bracketed {α : Type} (first later between last : String) (text : α → String) :
    List α → List String
  | [] => []
  | [x] => [first ++ text x ++ last]
  | x :: xs => (first ++ text x ++ between) :: bracketed later later between last text xs

/-- A port in a VHDL port clause, without what stands around it. -/
def vhdlPort (p : Port) : String :=
  alignName p.name ++ " : " ++ Text.padRight 5 (vhdl.directionKeyword p.direction) ++ " " ++
    vhdlType p.width

/-- The VHDL port clause, indented; nothing for no ports. -/
def vhdlPortClause (indent : Nat) (ports : List Port) : List String :=
  bracketed (Text.spaces indent ++ "PORT ( ") (Text.spaces (indent + 7)) ";" " );" vhdlPort ports

/-- A port declaration in a Verilog module. -/
def verilogPort (p : Port) : String :=
  indent ++ Text.padRight 6 (verilog.directionKeyword p.direction) ++ " " ++
    verilogRange p.width ++ p.name ++ ";"

/-- **The interface of a definition.** -/
def interface (d : Dialect) (name : String) (ports : List Port) : List String :=
  match d with
  | .vhdl =>
    ["LIBRARY ieee;", "USE ieee.std_logic_1164.all;", "", "ENTITY " ++ name ++ " IS"]
      ++ vhdlPortClause indentation ports ++ ["END ENTITY " ++ name ++ ";"]
  | .verilog =>
    if ports.isEmpty then ["module " ++ name ++ ";"]
    else
      let head := "module " ++ name ++ "( "
      bracketed head (Text.spaces head.utf8ByteSize) "," " );" Port.name ports
        ++ "" :: ports.map verilogPort

/-- **What a VHDL architecture declares of a definition it instantiates**; Verilog declares
nothing. -/
def componentDeclaration (d : Dialect) (name : String) (ports : List Port) : List String :=
  match d with
  | .vhdl =>
    (indent ++ "COMPONENT " ++ name) :: (vhdlPortClause (2 * indentation) ports
      ++ [indent ++ "END COMPONENT;", ""])
  | .verilog => []

end Dialect

end Netscribe
