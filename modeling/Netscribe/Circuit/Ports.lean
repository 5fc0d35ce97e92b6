import Netscribe.Circuit.Names
import Netscribe.Hdl.Port
import Netscribe.Hdl.Statement
/-!
# Ports of a circuit

A circuit's ports come from its bubbles, its clocks and its pins.

* `bubbleWidth` — the width of a bubble port.
* `Component.pinPort?` — the port a pin makes.
* `Netlist.ports` — all ports, in order.
* `bubbleSlice` — the part of a bubble bus that belongs to one component.
-/

namespace Netscribe

/-- **The width of a port for some bubbles**: zero, for a single wire, up to one bubble. -/
def bubbleWidth (count : Nat) : Nat :=
  if 1 < count then count else 0

/-- **The port that a pin makes**, its name and width; a pin without label or bits makes none. -/
def Component.pinPort? (pin : Component) : Option (String × Nat) :=
  match pin.terminal? 0 with
  | none => none
  | some t =>
    let name := Identifier.ofLabel pin.label
    if name.isEmpty || t.width == 0 then none else some (name, t.width)

namespace Netlist

/-- The port of some bubbles, where there are any. -/
def bubblePort (direction : Direction) (name : String) (count : Nat) : List Port :=
  if 0 < count then [⟨direction, name, bubbleWidth count⟩] else []

/-- The ports of some pins. -/
def pinPorts (direction : Direction) (pins : List Component) : List Port :=
  (pins.filterMap Component.pinPort?).map fun (name, width) => ⟨direction, name, width⟩

/-- The ports of the clock trees. -/
def clockTreePorts (nl : Netlist) : List Port :=
  (List.range nl.clockTrees.toNat).map fun tree =>
    ⟨.input, Names.clockTree tree, Names.clockTreeWidth⟩

/-- The port of the board clock, where the circuit needs it. -/
def globalClockPort (nl : Netlist) : List Port :=
  if nl.requiresGlobalClock then [⟨.input, Names.globalClock, 1⟩] else []

/-- **The ports of a circuit**: inout bubbles, clock trees, the board clock, input bubbles, input
pins, output bubbles, output pins, and the pins in both directions. -/
def ports (nl : Netlist) : List Port :=
  bubblePort .inout Names.inoutBubbles nl.inoutBubbles.toNat
    ++ nl.clockTreePorts ++ nl.globalClockPort
    ++ bubblePort .input Names.inputBubbles nl.inputBubbles.toNat
    ++ pinPorts .input nl.inputs
    ++ bubblePort .output Names.outputBubbles nl.outputBubbles.toNat
    ++ pinPorts .output nl.outputs
    ++ pinPorts .inout nl.inouts

end Netlist

/-- **The part of a bubble bus that belongs to a component.**  A bus of one bubble is a single wire,
which has no parts. -/
def bubbleSlice (bus : String) (range : Option BubbleRange) (count : Nat) : Ref :=
  if count ≤ 1 then .whole bus
  else
    match range with
    | none => .whole bus
    | some r =>
      if r.first = r.last then .bit bus r.first.toNat
      else .range bus r.last.toNat r.first.toNat

end Netscribe
