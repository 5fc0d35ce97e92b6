import Netscribe.Circuit.Signals
import Netscribe.Generation.Attempt
/-!
# Wiring

How nets are joined, and how a terminal is joined to the signals of a module.  A terminal meets the
signals in one of four ways; an input bit without a signal is tied to ground and reported, and a
terminal that the component may drive is left alone.

* `Netlist.wiring` — the assignments of nets that are forced to be roots.
* `Wires`, `Netlist.wiresOf` — the four ways.
* `Netlist.pinAssignments` — a terminal joined by assignments.
* `Netlist.terminalBinding` — a terminal joined in a port map.
-/

namespace Netscribe

/-! ## Forced roots -/

namespace Netlist

/-- The assignments of one bit of a forced root: its drivers drive it, and it drives its loads. -/
def bitWiring (nl : Netlist) (net : Net) (id bit : Nat) : List Assignment :=
  let this := bitOfNet net id bit
  (net.sourcesAt bit).filterMap (fun p => (nl.signalOf p).map fun r => .ofRef this r)
    ++ (net.sinksAt bit).filterMap fun p => (nl.signalOf p).map fun r => .ofRef r this

/-- The assignments of all forced roots, repetitions included. -/
def allWiring (nl : Netlist) : List Assignment :=
  (nl.numberedNets.filter fun (net, _) => net.forcedRoot).flatMap fun (net, id) =>
    (List.range net.width.toNat).flatMap (nl.bitWiring net id)

/-- The first occurrence of each element, in order. -/
def distinct {α : Type} [DecidableEq α] (xs : List α) : List α :=
  (xs.foldl (fun seen x => if x ∈ seen then seen else x :: seen) []).reverse

/-- **The assignments of nets that are forced to be roots**, each written once. -/
def wiring (nl : Netlist) : List Assignment :=
  distinct nl.allWiring

end Netlist

/-! ## Terminals -/

/-- **How a terminal meets the signals of a module.** -/
inductive Wires where
  /-- One bit, with its signal where it has one. -/
  | single (signal : Option Ref)
  /-- Any other number of bits, none of which has a signal. -/
  | nothing
  /-- Part of one bus, lowest bit first. -/
  | range (signal : Ref)
  /-- The signal of each bit, lowest first. -/
  | bits (signals : List (Option Ref))
  deriving DecidableEq

namespace Netlist

/-- **The way in which a terminal meets the signals.** -/
def wiresOf (nl : Netlist) (t : Terminal) : Wires :=
  match t.bits.map nl.signalAt with
  | [signal] => .single signal
  | signals =>
    if signals.all Option.isNone then .nothing
    else
      match nl.busRange? t with
      | some r => .range (.range (Names.bus r.net.toNat) r.hi.toNat r.lo.toNat)
      | none => .bits signals

end Netlist

/-- The terminal of a component at a position. -/
def Component.terminalAt (c : Component) (index : Nat) : Attempt Terminal :=
  .orFail (.missingTerminal c.label index c.terminalCount) (c.terminal? index)

/-- The positions of bits without a signal. -/
def missingBits (signals : List (Option Ref)) : List Nat :=
  (signals.zipIdx.filter fun (s, _) => s.isNone).map Prod.snd

/-- Joins bits of a port and a signal: a port that may drive gives, any other takes. -/
def joinPort (mayFloat : Bool) (port signal : Ref) : Assignment :=
  if mayFloat then .ofRef signal port else .ofRef port signal

/-- Joins one bit of a port to its signal, if it has one. -/
def joinBit (mayFloat : Bool) (port : Ref) : Option Ref → List Assignment
  | some signal => [joinPort mayFloat port signal]
  | none => if mayFloat then [] else [.ofZeros port 1]

/-- What is reported of a terminal named `port`: nothing where it may drive. -/
def Wires.warnings (port : String) (mayFloat : Bool) : Wires → List Warning
  | .single none => if mayFloat then [] else [.unconnectedInput port]
  | .nothing => if mayFloat then [] else [.unconnectedBus port]
  | .bits signals => if mayFloat then [] else (missingBits signals).map (.unconnectedBit port)
  | _ => []

/-- The assignments that join a terminal of some width named `port`. -/
def Wires.assignments (port : String) (mayFloat : Bool) (width : Nat) : Wires → List Assignment
  | .single signal => joinBit mayFloat (.whole port) signal
  | .nothing => if mayFloat then [] else [.ofZeros (.whole port) width]
  | .range signal => [joinPort mayFloat (.whole port) signal]
  | .bits signals => signals.zipIdx.flatMap fun (s, i) => joinBit mayFloat (.bit port i) s

/-- What one bit in a port map is bound to. -/
def bitActual (mayFloat : Bool) : Option Ref → Actual
  | some signal => .ref signal
  | none => if mayFloat then .unconnectedBit else .zeros 1

/-- What a terminal of some width is bound to in a port map. -/
def Wires.binding (mayFloat : Bool) (width : Nat) : Wires → Binding
  | .single (some signal) => .whole (.ref signal)
  | .single none => .whole (if mayFloat then .unconnected else .zeros 1)
  | .nothing => .whole (if mayFloat then .unconnected else .zeros width)
  | .range signal => .whole (.ref signal)
  | .bits signals => .bits (signals.map (bitActual mayFloat))

namespace Netlist

/-- **Joins a terminal to the signals by assignments**, under the name `port`. -/
def pinAssignments (nl : Netlist) (port : String) (c : Component) (index : Nat) :
    Attempt (List Assignment) := do
  let t ← c.terminalAt index
  if t.width = 0 then return []
  else
    let wires := nl.wiresOf t
    ⟨wires.warnings port t.direction.mayFloat,
      .ok (wires.assignments port t.direction.mayFloat t.width)⟩

/-- **Joins a terminal to the signals in a port map**, under the name `port`. -/
def terminalBinding (nl : Netlist) (port : String) (c : Component) (index : Nat) :
    Attempt Binding := do
  let t ← c.terminalAt index
  let wires := nl.wiresOf t
  ⟨wires.warnings port t.direction.mayFloat, .ok (wires.binding t.direction.mayFloat t.width)⟩

end Netlist

end Netscribe
