import Netscribe.Board
import Netscribe.Circuit.Ports
import Netscribe.Circuit.Wiring
/-!
# Bindings of an instance

What the ports of a circuit are connected to, for an instance inside another circuit and for the
top-level instance on a board.

* `Netlist.instanceBindings` — an instance placed in a circuit.
* `Netlist.boardBindings` — the top circuit placed on a board.
-/

namespace Netscribe

/-- A port connected to a signal. -/
def bindTo (port signal : String) : String × Binding :=
  (port, .whole (.ref (.whole signal)))

namespace Netlist

/-- The clock trees of a circuit, each connected to the signal that `name` gives for its port. -/
def clockTreeBindings (nl : Netlist) (name : String → String) : List (String × Binding) :=
  (List.range nl.clockTrees.toNat).map fun tree =>
    bindTo (Names.clockTree tree) (name (Names.clockTree tree))

/-- The board clock, where the circuit needs it. -/
def globalClockBinding (nl : Netlist) : List (String × Binding) :=
  if nl.requiresGlobalClock then [bindTo Names.globalClock Names.globalClock] else []

/-- A bubble port connected to a part of the enclosing bubble bus, where there are bubbles. -/
def bubbleBinding (bus : String) (count : Nat) (range : Option BubbleRange) (enclosing : Nat) :
    List (String × Binding) :=
  if 0 < count then [(bus, .whole (.ref (bubbleSlice bus range enclosing)))] else []

/-- A pin of an instance, connected through the terminal that carries it. -/
def pinBinding (nl : Netlist) (c : Component) (direction : Direction) (port : String) :
    Attempt (String × Binding) := do
  let index ← Attempt.orFail (.unresolvedPin c.label port) (c.terminalIndex? port direction)
  let binding ← nl.terminalBinding port c index
  return (port, binding)

/-- The pins of a circuit that make a port, each connected. -/
def pinBindings (nl : Netlist) (c : Component) (direction : Direction) (pins : List Component) :
    Attempt (List (String × Binding)) :=
  ((pins.filterMap Component.pinPort?).map Prod.fst).mapM (nl.pinBinding c direction)

/-- **The bindings of an instance** of the circuit `child`, placed in this circuit.  Clocks pass by
name, bubbles take the instance's part of the enclosing buses, and each pin goes through the
terminal that carries it. -/
def instanceBindings (nl : Netlist) (c : Component) (child : Netlist) :
    Attempt (List (String × Binding)) := do
  let inputs ← nl.pinBindings c .input child.inputs
  let outputs ← nl.pinBindings c .output child.outputs
  let inouts ← nl.pinBindings c .inout child.inouts
  return child.clockTreeBindings id ++ child.globalClockBinding
    ++ bubbleBinding Names.inoutBubbles child.inoutBubbles.toNat c.bubbles.inout
        nl.inoutBubbles.toNat
    ++ bubbleBinding Names.inputBubbles child.inputBubbles.toNat c.bubbles.input
        nl.inputBubbles.toNat
    ++ bubbleBinding Names.outputBubbles child.outputBubbles.toNat c.bubbles.output
        nl.outputBubbles.toNat
    ++ inputs ++ outputs ++ inouts

/-! ## On a board -/

/-- What a bubble's bit is bound to on a board. -/
def bubbleActual : Option Board.Mapping → Actual
  | some (.pin name inverted) => .ref (.whole (if inverted then Names.invertedPin name else name))
  | some .opened => .unconnectedBit
  | none => .unconnectedBit

/-- The inout bubbles of a circuit, as words. -/
def inoutBubbleList (nl : Netlist) : List UInt32 :=
  (List.range nl.inoutBubbles.toNat).map UInt32.ofNat

/-- The inout bubbles bound to the pins of a board, where there are any. -/
def boardBubbles (nl : Netlist) (board : Board) : List (String × Binding) :=
  if 0 < nl.inoutBubbles then
    [(Names.inoutBubbles, .bits (nl.inoutBubbleList.map fun b => bubbleActual (board.bubble? b)))]
  else []

/-- What is reported of bubbles that no resource owns. -/
def boardWarnings (nl : Netlist) (board : Board) : List Warning :=
  (nl.inoutBubbleList.filter fun b => (board.bubble? b).isNone).map fun b =>
    .unownedBubble b.toNat

/-- A port connected to its board signal. -/
def bindOnBoard (port : String) : String × Binding :=
  bindTo port (Names.onBoard port)

/-- The bubbles of one direction connected to their board signal, where there are any. -/
def boardBus (bus : String) (count : Nat) : List (String × Binding) :=
  if 0 < count then [bindOnBoard bus] else []

/-- **The bindings of the top circuit on a board.** -/
def boardBindings (nl : Netlist) (board : Board) : Attempt (List (String × Binding)) :=
  ⟨nl.boardWarnings board,
    .ok (nl.clockTreeBindings Names.onBoard ++ nl.globalClockBinding
      ++ boardBus Names.inputBubbles nl.inputBubbles.toNat
      ++ boardBus Names.outputBubbles nl.outputBubbles.toNat
      ++ nl.boardBubbles board
      ++ ((nl.inputs ++ nl.outputs ++ nl.inouts).filterMap Component.pinPort?).map
          fun (port, _) => bindOnBoard port)⟩

end Netlist

end Netscribe
