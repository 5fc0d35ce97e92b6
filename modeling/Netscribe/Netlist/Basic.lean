import Netscribe.Data.Dictionary
/-!
# Netlists

The connectivity of one circuit: nets of one or more bits, and what is placed on them.  Net and
circuit identifiers are positions in their tables; positions, bits and widths are 32-bit words, as
the exchange format has them.

* `Point`, `Net`, `View` — a bit of a net, a net, and a net that looks into a part of another.
* `Terminal`, `Component` — a connected end of a component, and the component.
* `Netlist` — all nets, components, instances, pins and clock sources of a circuit.
-/

namespace Netscribe

/-! ## Nets -/

/-- **One bit of a net.** -/
structure Point where
  net : UInt32
  bit : UInt32
  deriving DecidableEq

/-- Where a net lies inside its parent: its bit `i` is bit `offset + i` of the parent. -/
structure View where
  net : UInt32
  /-- Where the view starts in the parent. -/
  offset : UInt32
  deriving DecidableEq

/-- **A net**: a wire or a bus. -/
structure Net where
  width : UInt32
  /-- The net it is a view of, if any. -/
  parent : Option View := none
  /-- A view that has a signal of its own all the same. -/
  forcedRoot : Bool := false
  sources : List (List Point) := []
  sinks : List (List Point) := []
  deriving DecidableEq

namespace Net

instance : Inhabited Net := ⟨{ width := 0 }⟩

/-- A net of several bits. -/
def isBus (n : Net) : Bool :=
  1 < n.width

/-- A net with storage of its own. -/
def isRoot (n : Net) : Bool :=
  n.parent.isNone || n.forcedRoot

/-- The view to follow from a bit of this net, for a bus whose storage is its parent's. -/
def follow? (n : Net) : Option View :=
  if n.isBus && !n.forcedRoot then n.parent else none

def sourcesAt (n : Net) (bit : Nat) : List Point :=
  n.sources.getD bit []

def sinksAt (n : Net) (bit : Nat) : List Point :=
  n.sinks.getD bit []

end Net

/-! ## Components -/

/-- A direction, seen from the component. -/
inductive Direction where
  | input
  | output
  | inout
  deriving DecidableEq

namespace Direction

def all : List Direction :=
  [.input, .output, .inout]

/-- The name of a direction. -/
def text : Direction → String
  | .input => "input"
  | .output => "output"
  | .inout => "inout"

/-- A direction in which the component itself may drive, so that nothing need be connected. -/
def mayFloat (d : Direction) : Bool :=
  d != .input

end Direction

/-- **A terminal of a component**: one connection per bit, or none. -/
structure Terminal where
  /-- The direction seen from the component. -/
  direction : Direction
  /-- The pin it carries, on the terminals of an instance. -/
  label : Option String := none
  /-- The connection of each bit, lowest first. -/
  bits : List (Option Point)
  deriving DecidableEq

namespace Terminal

/-- How many bits it has. -/
def width (t : Terminal) : Nat :=
  t.bits.length

def isConnected (t : Terminal) : Bool :=
  t.bits.any Option.isSome

/-- The connection of a bit, if it exists and is connected. -/
def point? (t : Terminal) (bit : Nat) : Option Point :=
  (t.bits[bit]?).join

/-- A terminal with no bit connected. -/
def unconnected (direction : Direction) (width : Nat) (label : Option String := none) :
    Terminal :=
  { direction, label, bits := List.replicate width none }

end Terminal

/-- A range of bubbles within the enclosing module's bubble bus, both ends included. -/
structure BubbleRange where
  first : UInt32
  last : UInt32
  deriving DecidableEq

/-- How many bubbles a range holds: at least one. -/
def BubbleRange.size (r : BubbleRange) : Nat :=
  (r.last.toNat - r.first.toNat) + 1

/-- The bubbles a component adds to the enclosing module. -/
structure Bubbles where
  /-- Its part of the input bubbles. -/
  input : Option BubbleRange := none
  /-- Its part of the output bubbles. -/
  output : Option BubbleRange := none
  /-- Its part of the inout bubbles. -/
  inout : Option BubbleRange := none
  deriving DecidableEq

/-- An attribute of a primitive. -/
inductive Attribute where
  /-- A number, such as a width. -/
  | int (value : Int64)
  | bool (value : Bool)
  | text (value : String)
  deriving DecidableEq

/-- The attributes of a primitive, by name. -/
abbrev Attributes := Dictionary Attribute

inductive Kind where
  /-- A pin of the circuit, or a clock. -/
  | pin
  /-- A component that a registered factory knows how to generate. -/
  | primitive (factory : String) (attributes : Attributes)
  /-- An instance of another circuit of the design, or of its clock-gated variant. -/
  | instance (circuit : UInt32) (gated : Bool)
  deriving DecidableEq

/-- **A placed component.** -/
structure Component where
  label : String := ""
  kind : Kind := .pin
  /-- Its terminals, in the order its kind fixes. -/
  terminals : List Terminal := []
  bubbles : Bubbles := {}
  deriving DecidableEq

namespace Component

/-- The terminal at a position. -/
def terminal? (c : Component) (index : Nat) : Option Terminal :=
  c.terminals[index]?

/-- How many terminals it has. -/
def terminalCount (c : Component) : Nat :=
  c.terminals.length

/-- Is there a terminal at a position with a connected bit? -/
def isTerminalConnected (c : Component) (index : Nat) : Bool :=
  (c.terminal? index).any Terminal.isConnected

/-- The circuit that an instance stands for, and whether it is the clock-gated variant. -/
def target? (c : Component) : Option (UInt32 × Bool) :=
  match c.kind with
  | .instance circuit gated => some (circuit, gated)
  | _ => none

/-- Is this an instance of a clock-gated variant? -/
def isGated (c : Component) : Bool :=
  c.target?.any Prod.snd

/-- The attributes of a primitive. -/
def attribute? (c : Component) (name : String) : Option Attribute :=
  match c.kind with
  | .primitive _ attributes => attributes.get? name
  | _ => none

/-- A numeric attribute of a primitive. -/
def intAttribute? (c : Component) (name : String) : Option Int64 :=
  match c.attribute? name with
  | some (.int value) => some value
  | _ => none

end Component

/-- A clock source and the clock tree that feeds it. -/
structure ClockSource where
  /-- The clock component; its first terminal is the clock output. -/
  component : Component
  /-- The clock tree, where it is known. -/
  tree : Option UInt32 := none
  deriving DecidableEq

/-! ## The netlist of a circuit -/

/-- **The netlist of a circuit.** -/
structure Netlist where
  nets : Array Net := #[]
  components : List Component := []
  instances : List Component := []
  /-- The input pins, in order of declaration. -/
  inputs : List Component := []
  /-- The output pins, in order of declaration. -/
  outputs : List Component := []
  /-- The pins in both directions, in order of declaration. -/
  inouts : List Component := []
  clockSources : List ClockSource := []
  /-- How many clock trees reach the circuit. -/
  clockTrees : UInt32 := 0
  /-- Does the circuit need the free-running clock of the board? -/
  requiresGlobalClock : Bool := false
  /-- How many input bubbles it has. -/
  inputBubbles : UInt32 := 0
  /-- How many output bubbles it has. -/
  outputBubbles : UInt32 := 0
  /-- How many inout bubbles it has. -/
  inoutBubbles : UInt32 := 0
  deriving DecidableEq

namespace Netlist

/-- The net at a position. -/
def net? (nl : Netlist) (id : UInt32) : Option Net :=
  nl.nets[id.toNat]?

/-- The nets with their positions, in order. -/
def numberedNets (nl : Netlist) : List (Net × Nat) :=
  nl.nets.toList.zipIdx

/-- The circuits that are instantiated, in order, with repetitions. -/
def children (nl : Netlist) : List UInt32 :=
  nl.instances.filterMap fun c => c.target?.map Prod.fst

end Netlist

end Netscribe
