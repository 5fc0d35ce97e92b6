import Netscribe.Design.Hierarchy
import Netscribe.Netlist.Root
/-!
# Checking a design

Every reference of a design must lead somewhere: the top circuit, the circuit of an instance, the
parent of a view, and each point.  Each list of components holds the kinds it is meant for, and the
hierarchy is acyclic.  The first fault found decides.

* `Netlist.checkPoint`, `Netlist.checkNet`, `Netlist.checkComponent` — the parts.
* `Design.validate` — the whole check.
-/

namespace Netscribe

namespace Netlist

variable (nl : Netlist) (circuit : String)

/-- Refuses a point that is no bit of a net. -/
def checkPoint (p : Point) : Except DesignError Unit :=
  match nl.net? p.net with
  | none => .error (.unknownNet circuit p.net)
  | some net =>
    if net.width ≤ p.bit then .error (.bitOutOfRange circuit p.net p.bit net.width) else .ok ()

/-- Refuses a view whose last bit is no bit of its parent. -/
def checkParent (net : Net) (id : Nat) : Except DesignError Unit :=
  match net.parent with
  | none => .ok ()
  | some view =>
    match addWord? view.offset (net.width - 1) with
    | none => .error (.viewPastEnd circuit id view.net)
    | some last => checkPoint nl circuit ⟨view.net, last⟩

/-- Refuses a net without bits, or with a bad reference. -/
def checkNet (net : Net) (id : Nat) : Except DesignError Unit := do
  if net.width = 0 then throw (.zeroWidth circuit id)
  checkParent nl circuit net id
  net.sources.flatten.forM (checkPoint nl circuit)
  net.sinks.flatten.forM (checkPoint nl circuit)

/-- Refuses a component with a bad connection. -/
def checkComponent (c : Component) : Except DesignError Unit :=
  (c.terminals.flatMap fun t => t.bits.filterMap id).forM (checkPoint nl circuit)

/-- Refuses a component that is no primitive, or has a bad connection. -/
def checkPrimitive (c : Component) : Except DesignError Unit :=
  match c.kind with
  | .primitive _ _ => checkComponent nl circuit c
  | _ => .error (.misplaced circuit c.label "primitive components")

/-- Refuses a component that is no pin, or has a bad connection. -/
def checkPin (c : Component) : Except DesignError Unit :=
  match c.kind with
  | .pin => checkComponent nl circuit c
  | _ => .error (.misplaced circuit c.label "pins")

end Netlist

namespace Design

/-- Refuses a component that is no instance of a circuit of the design, or has a bad connection. -/
def checkInstance (d : Design) (nl : Netlist) (circuit : String) (c : Component) :
    Except DesignError Unit :=
  match c.kind with
  | .instance target _ =>
    match d.circuit? target with
    | none => .error (.unknownCircuit target)
    | some _ => nl.checkComponent circuit c
  | _ => .error (.misplaced circuit c.label "sub-circuit instances")

/-- Checks the references of one circuit. -/
def checkCircuit (d : Design) (c : Circuit) : Except DesignError Unit := do
  let nl := c.netlist
  nl.numberedNets.forM fun (net, id) => nl.checkNet c.name net id
  nl.components.forM (nl.checkPrimitive c.name)
  nl.instances.forM (d.checkInstance nl c.name)
  (nl.inputs ++ nl.outputs ++ nl.inouts).forM (nl.checkPin c.name)
  nl.clockSources.forM fun clock => nl.checkComponent c.name clock.component

/-- **Checks a design.** -/
def validate (d : Design) : Except DesignError Unit := do
  if d.topCircuit?.isNone then throw (.unknownCircuit d.top)
  d.circuits.toList.forM d.checkCircuit
  d.checkAcyclic

end Design

end Netscribe
