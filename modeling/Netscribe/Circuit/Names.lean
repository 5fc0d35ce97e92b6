import Netscribe.Text.Identifier
/-!
# Generated names

Every name in a generated module is made from something that does not change between two runs: the
position of a net, the number of a clock tree, the name of a circuit.

* `Names.net`, `Names.bus`, `Names.clockTree` — signals.
* `Names.definition`, `Names.instanceLabel` — definitions and their instances.
-/

namespace Netscribe.Names

/-- The signal of a net of one bit. -/
def net (id : Nat) : String :=
  "s_logisimNet" ++ toString id

/-- The signal of a root bus. -/
def bus (id : Nat) : String :=
  "s_logisimBus" ++ toString id

/-- The port of a clock tree. -/
def clockTree (index : Nat) : String :=
  "logisimClockTree" ++ toString index

/-- The port of the input bubbles. -/
def inputBubbles : String := "logisimInputBubbles"

/-- The port of the output bubbles. -/
def outputBubbles : String := "logisimOutputBubbles"

/-- The port of the inout bubbles. -/
def inoutBubbles : String := "logisimInOutBubbles"

/-- The port of the free-running board clock. -/
def globalClock : String := "fpgaGlobalClock"

/-- How many bits a clock tree has. -/
def clockTreeWidth : Nat := 5

/-- The bit of a clock tree that carries the derived clock. -/
def derivedClockBit : Nat := 0

/-- The name of a circuit's definition, or of its clock-gated variant. -/
def definition (circuit : String) (gated : Bool) : String :=
  Identifier.ofLabel circuit ++ if gated then "_gated" else ""

/-- The label of the `id`-th instance of a definition in a module. -/
def instanceLabel (definition : String) (id : Nat) : String :=
  definition ++ "_" ++ toString id

/-- The board signal that a top-level port is connected to. -/
def onBoard (port : String) : String :=
  "s_" ++ port

/-- The name of a board pin that is inverted outside. -/
def invertedPin (pin : String) : String :=
  "n_" ++ pin

end Netscribe.Names
