import Netscribe.Circuit.Wiring
/-!
# Gates

A gate is written into the body of the circuit that uses it, one assignment per output bit.  Its
first terminal is the output and the others are inputs; an inverter and a buffer read only one.

* `Gate` — the eight gates.
* `Gate.assignments` — the assignments of a placed gate.
-/

namespace Netscribe

/-- **A bitwise gate.** -/
inductive Gate where
  | and
  | or
  | xor
  | nand
  | nor
  | xnor
  | not
  | buffer
  deriving DecidableEq

namespace Gate

def all : List Gate :=
  [.and, .or, .xor, .nand, .nor, .xnor, .not, .buffer]

/-- The name of a gate. -/
def name : Gate → String
  | .and => "AND"
  | .or => "OR"
  | .xor => "XOR"
  | .nand => "NAND"
  | .nor => "NOR"
  | .xnor => "XNOR"
  | .not => "NOT"
  | .buffer => "BUFFER"

/-- The operator between the inputs. -/
def operator : Gate → LogicOp
  | .and | .nand | .not | .buffer => .and
  | .or | .nor => .or
  | .xor | .xnor => .xor

def negated : Gate → Bool
  | .nand | .nor | .xnor | .not => true
  | .and | .or | .xor | .buffer => false

/-- Does the gate read one input only? -/
def isUnary : Gate → Bool
  | .not | .buffer => true
  | _ => false

/-- How many terminals a gate needs. -/
def required (g : Gate) : Nat :=
  if g.isUnary then 2 else 3

/-- The input terminals of a placed gate. -/
def inputs (g : Gate) (c : Component) : List Terminal :=
  let inputs := c.terminals.drop 1
  if g.isUnary then inputs.take 1 else inputs

/-- The signal of a bit of a terminal. -/
def signalBit (nl : Netlist) (t : Terminal) (bit : Nat) : Option Ref :=
  nl.signalAt (t.point? bit)

/-- What one input gives to a bit: its signal, or zero. -/
def operand (nl : Netlist) (bit : Nat) (t : Terminal) : Operand :=
  match signalBit nl t bit with
  | some signal => .ref signal
  | none => .zeros 1

/-- The name under which an input is reported. -/
def inputName (label : String) (position : Nat) : String :=
  label ++ ".input" ++ toString (position + 1)

/-- What is reported of the inputs of one bit; `single` for a gate of one bit. -/
def bitWarnings (nl : Netlist) (label : String) (single : Bool) (inputs : List Terminal)
    (bit : Nat) : List Warning :=
  (inputs.zipIdx.filter fun (t, _) => (signalBit nl t bit).isNone).map fun (_, k) =>
    if single then .unconnectedInput (inputName label k)
    else .unconnectedBit (inputName label k) bit

/-- The bits of the output that have a signal, each with it. -/
def outputBits (nl : Netlist) (output : Terminal) : List (Nat × Ref) :=
  (List.range output.width).filterMap fun bit =>
    (signalBit nl output bit).map (bit, ·)

/-- **The assignments of a placed gate**, reported under an instance label.  An output bit without
a signal is not read by anything and needs none. -/
def assignments (g : Gate) (nl : Netlist) (label : String) (c : Component) :
    Attempt (List Assignment) :=
  match c.terminals with
  | output :: _ =>
    if c.terminalCount < g.required then
      .fail (.missingTerminal c.label (g.required - 1) c.terminalCount)
    else
      let inputs := g.inputs c
      let bits := outputBits nl output
      ⟨bits.flatMap fun (bit, _) => bitWarnings nl label (output.width == 1) inputs bit,
        .ok (bits.map fun (bit, signal) =>
          ⟨signal, .logic g.operator g.negated (inputs.map (operand nl bit))⟩)⟩
  | [] => .fail (.missingTerminal c.label (g.required - 1) c.terminalCount)

end Gate

end Netscribe
