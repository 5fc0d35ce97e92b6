import Netscribe.Hdl.Dialect
/-!
# Assignments

What an assignment says, apart from how it is written: the bits it drives and the expression that
drives them.

* `Ref` — a whole signal, one of its bits, or a range of them.
* `Operand`, `Expr` — a reference or zeros, a gate over operands, or a choice.
* `Assignment` — a reference that gets an expression.
* `Assignment.line` — the statement in a language.
-/

namespace Netscribe

/-! ## References -/

/-- **A reference to bits of a named signal.** -/
inductive Ref where
  | whole (name : String)
  | bit (name : String) (index : Nat)
  /-- The bits of a bus from `lo` to `hi`. -/
  | range (name : String) (hi lo : Nat)
  deriving DecidableEq

namespace Ref

def name : Ref → String
  | .whole name => name
  | .bit name _ => name
  | .range name _ _ => name

/-- A reference in a language. -/
def text (d : Dialect) : Ref → String
  | .whole name => name
  | .bit name index => name ++ d.bracketOpen ++ toString index ++ d.bracketClose
  | .range name hi lo =>
    name ++ d.bracketOpen ++ toString hi ++ d.rangeSeparator ++ toString lo ++ d.bracketClose

end Ref

/-! ## Expressions -/

inductive Operand where
  | ref (ref : Ref)
  | zeros (width : Nat)
  deriving DecidableEq

/-- An operand in a language. -/
def Operand.text (d : Dialect) : Operand → String
  | .ref r => r.text d
  | .zeros width => d.zeros width

inductive LogicOp where
  | and
  | or
  | xor
  deriving DecidableEq

/-- An operator in a language, with the blanks around it. -/
def LogicOp.text : Dialect → LogicOp → String
  | .vhdl, .and => " AND "
  | .vhdl, .or => " OR "
  | .vhdl, .xor => " XOR "
  | .verilog, .and => " & "
  | .verilog, .or => " | "
  | .verilog, .xor => " ^ "

/-- **What an assignment may drive a signal with.** -/
inductive Expr where
  | operand (o : Operand)
  /-- One operator between all operands, negated or not. -/
  | logic (op : LogicOp) (negated : Bool) (operands : List Operand)
  /-- One of two operands, by a selecting one. -/
  | choice (select low high : Operand)
  deriving DecidableEq

namespace Expr

/-- A gate's expression in a language. -/
def logicText (d : Dialect) (op : LogicOp) (negated : Bool) (operands : List Operand) : String :=
  let plain := String.intercalate (op.text d) (operands.map (Operand.text d))
  if negated then
    match d with
    | .vhdl => "NOT(" ++ plain ++ ")"
    | .verilog => "~(" ++ plain ++ ")"
  else plain

/-- An expression in a language. -/
def text (d : Dialect) : Expr → String
  | .operand o => o.text d
  | .logic op negated operands => logicText d op negated operands
  | .choice select low high =>
    match d with
    | .vhdl => high.text d ++ " WHEN " ++ select.text d ++ " = '1' ELSE " ++ low.text d
    | .verilog => "(" ++ select.text d ++ ") ? " ++ high.text d ++ " : " ++ low.text d

end Expr

/-! ## Assignments -/

/-- **An assignment**: the target gets the source. -/
structure Assignment where
  target : Ref
  source : Expr
  deriving DecidableEq

namespace Assignment

def ofRef (target source : Ref) : Assignment :=
  ⟨target, .operand (.ref source)⟩

def ofZeros (target : Ref) (width : Nat) : Assignment :=
  ⟨target, .operand (.zeros width)⟩

/-- **The statement in a language**, with its target padded to the name column. -/
def line (d : Dialect) (a : Assignment) : String :=
  indent ++ d.assignLead ++ alignName (a.target.text d) ++ d.assignOperator ++ a.source.text d
    ++ ";"

end Assignment

end Netscribe
