import Netscribe.Text.Fill
/-!
# The two hardware languages

The tokens in which VHDL-93 and Verilog-2001 differ.  Everything that is generated is first built
as data that knows no language, and then written in one of them with these tokens.

* `Dialect` — the language.
* `Dialect.zeros` — the literal for a number of zero bits.
-/

namespace Netscribe

/-- **The language that is written.** -/
inductive Dialect where
  | vhdl
  | verilog
  deriving DecidableEq

namespace Dialect

def all : List Dialect :=
  [.vhdl, .verilog]

/-- The lower-case name, also that of the directory for its files. -/
def name : Dialect → String
  | .vhdl => "vhdl"
  | .verilog => "verilog"

/-- The language with a name. -/
def ofName? (name : String) : Option Dialect :=
  all.find? fun d => d.name == name

/-- What opens an index or a range. -/
def bracketOpen : Dialect → String
  | .vhdl => "("
  | .verilog => "["

/-- What closes an index or a range. -/
def bracketClose : Dialect → String
  | .vhdl => ")"
  | .verilog => "]"

/-- What stands between the high and the low end of a range. -/
def rangeSeparator : Dialect → String
  | .vhdl => " DOWNTO "
  | .verilog => ":"

def assignLead : Dialect → String
  | .vhdl => ""
  | .verilog => "assign "

/-- What stands between the sides of an assignment. -/
def assignOperator : Dialect → String
  | .vhdl => " <= "
  | .verilog => " = "

/-- What is written for a whole port that is connected to nothing. -/
def unconnected : Dialect → String
  | .vhdl => "OPEN"
  | .verilog => ""

/-- What is written for one bit that is connected to nothing. -/
def unconnectedBit : Dialect → String
  | .vhdl => "OPEN"
  | .verilog => "1'bz"

/-- **The literal for zero bits**; a width of zero counts as one. -/
def zeros : Dialect → (width : Nat) → String
  | .vhdl, width =>
    if width ≤ 1 then "'0'"
    else String.ofList ('"' :: (List.replicate width '0' ++ ['"']))
  | .verilog, width => toString (max width 1) ++ "'d0"

end Dialect

/-! ## Layout -/

/-- The column up to which names are padded in aligned lines. -/
def nameColumn : Nat := 35

def indentation : Nat := 3

/-- A name padded to its column. -/
def alignName (name : String) : String :=
  Text.padRight nameColumn name

/-- The indentation of a statement. -/
def indent : String :=
  Text.spaces indentation

end Netscribe
