import Netscribe.Circuit.Ports
import Netscribe.Circuit.Wiring
/-!
# Clock sources

Each clock source drives its net from its clock tree, or from the board clock in a circuit that
needs that.  A source without any connection is skipped and reported.

* `Netlist.clockAssignment` — one source.
* `Netlist.clockAssignments` — all of them.
-/

namespace Netscribe.Netlist

/-- What drives the net of a clock source. -/
def clockDriver (nl : Netlist) (tree : UInt32) : Ref :=
  if nl.requiresGlobalClock then .whole Names.globalClock
  else .bit (Names.clockTree tree.toNat) Names.derivedClockBit

/-- The signal of a clock source's lowest bit. -/
def clockSignal? (nl : Netlist) (t : Terminal) : Option Ref :=
  nl.signalAt (t.point? 0)

/-- The tree of a clock source, where the circuit has it. -/
def clockTree? (nl : Netlist) (source : ClockSource) : Option UInt32 :=
  source.tree.filter fun tree => tree < nl.clockTrees

/-- **The assignment of a clock source**; none for one without connection. -/
def clockAssignment (nl : Netlist) (systemClock : String) (source : ClockSource) :
    Attempt (Option Assignment) :=
  let label := source.component.label
  match (source.component.terminal? 0).filter Terminal.isConnected with
  | none => do
    Attempt.warn (.unconnectedClock label (label == systemClock))
    return none
  | some t => do
    let net ← Attempt.orFail (.unresolvedClock label) (nl.clockSignal? t)
    let tree ← Attempt.orFail (.unresolvedClock label) (nl.clockTree? source)
    return some (.ofRef net (nl.clockDriver tree))

/-- **The assignments of all clock sources**, in order. -/
def clockAssignments (nl : Netlist) (systemClock : String) : Attempt (List Assignment) := do
  let assignments ← nl.clockSources.mapM (nl.clockAssignment systemClock)
  return assignments.filterMap id

end Netscribe.Netlist
