import Netscribe.Circuit.Bindings
import Netscribe.Circuit.Clocks
import Netscribe.Design.Basic
import Netscribe.Primitive.Registry
/-!
# Definitions of circuits

The body of a circuit is a sequence of titled sections: clocks, forced roots, the three lists of
pins, what is written in place, placed definitions, and instances of other circuits.

* `Context` — the design, the registry and the label of the system clock.
* `Context.sections` — the sections of a netlist.
* `Context.declarations` — what a VHDL body declares.
* `Context.definition` — the definition of a circuit.
-/

namespace Netscribe

/-- **What a run is about.** -/
structure Context where
  design : Design
  registry : Registry := .builtins
  /-- The label of the system clock, which may be left unconnected. -/
  systemClock : String := "sysclk"

namespace Context

/-- What a kind is called when no generator is known for it. -/
def kindText : Kind → String
  | .primitive factory _ => factory
  | .instance _ _ => "sub-circuit"
  | .pin => "pin"

/-- The primitive a component asks for. -/
def resolve (ctx : Context) (c : Component) : Attempt Primitive :=
  .orFail (.missingGenerator c.label (kindText c.kind)) (ctx.registry.resolve? c)

/-- The circuit an instance stands for, its position and whether it is the gated variant; `none`
for a component that is no instance. -/
def target (ctx : Context) (c : Component) : Attempt (Option (UInt32 × Circuit × Bool)) :=
  match c.target? with
  | none => return none
  | some (id, gated) => do
    let circuit ← Attempt.orFail (.missingCircuit c.label id) (ctx.design.circuit? id)
    return some (id, circuit, gated)

/-! ## Sections -/

/-- The assignments of some pins, each under the name of its port. -/
def pinSection (nl : Netlist) (pins : List Component) : Attempt (List Assignment) := do
  let each ← (pins.filterMap fun pin => pin.pinPort?.map (·.1, pin)).mapM fun (port, pin) =>
    nl.pinAssignments port pin 0
  return each.flatten

/-- What the components write in place and what they instantiate.  Both kinds are numbered from
one, each for itself; the two numbers are the next ones to give. -/
def placeComponents (ctx : Context) (nl : Netlist) : (inlineId instanceId : Nat) →
    List Component → Attempt (List Statement × List Statement)
  | _, _, [] => return ([], [])
  | inlineId, instanceId, c :: cs => do
    let p ← ctx.resolve c
    if p.isInlined then
      let here ← p.inlined nl p.name inlineId c
      let (inlined, instances) ← placeComponents ctx nl (inlineId + 1) instanceId cs
      return (here.map .assign ++ inlined, instances)
    else
      let here ← p.instances nl p.name instanceId c
      let (inlined, instances) ← placeComponents ctx nl inlineId (instanceId + 1) cs
      return (inlined, here ++ instances)

/-- The instance of the circuit `child` that component `c` is, under a definition name. -/
def circuitInstance (nl : Netlist) (name : String) (id : Nat) (c : Component) (child : Netlist) :
    Attempt Statement := do
  let bindings ← nl.instanceBindings c child
  return .instance name (Names.instanceLabel name id) bindings

/-- The instances of other circuits, numbered by their places. -/
def placeInstances (ctx : Context) (nl : Netlist) : Attempt (List Statement) := do
  let each ← nl.instances.zipIdx.mapM fun (c, index) => do
    match ← ctx.target c with
    | none => return []
    | some (_, circuit, gated) =>
      let statement ←
        circuitInstance nl (Names.definition circuit.name gated) (index + 1) c circuit.netlist
      return [statement]
  return each.flatten

def assignmentSection (title : String) (assignments : List Assignment) : List Section :=
  Section.titled title (assignments.map .assign)

/-- **The sections of a netlist's body.** -/
def sections (ctx : Context) (nl : Netlist) : Attempt (List Section) := do
  let clocks ← nl.clockAssignments ctx.systemClock
  let inputs ← pinSection nl nl.inputs
  let outputs ← pinSection nl nl.outputs
  let inouts ← pinSection nl nl.inouts
  let (inlined, placed) ← ctx.placeComponents nl 1 1 nl.components
  let instances ← ctx.placeInstances nl
  return assignmentSection "Here all clock generator connections are defined" clocks
    ++ assignmentSection "Here all wiring is defined" nl.wiring
    ++ assignmentSection "Here all input connections are defined" inputs
    ++ assignmentSection "Here all output connections are defined" outputs
    ++ assignmentSection "Here all inout connections are defined" inouts
    ++ Section.titled "Here all in-lined components are defined" inlined
    ++ Section.titled "Here all normal components are defined" placed
    ++ Section.titled "Here all sub-circuits are defined" instances

/-! ## Declarations and the definition -/

/-- What is declared of a placed primitive. -/
def primitiveDeclaration (ctx : Context) (c : Component) : Attempt (List Declaration) := do
  let p ← ctx.resolve c
  return (p.definition? p.name).toList.map fun m => ⟨m.name, m.ports⟩

/-- What is declared of an instance of another circuit. -/
def instanceDeclaration (ctx : Context) (c : Component) : Attempt (List Declaration) := do
  match ← ctx.target c with
  | none => return []
  | some (_, circuit, gated) =>
    return [⟨Names.definition circuit.name gated, circuit.netlist.ports⟩]

/-- The first declaration of each name, in order. -/
def firstPerName (declarations : List Declaration) : List Declaration :=
  (declarations.foldl
    (fun kept c => if kept.any fun k => k.name == c.name then kept else c :: kept) []).reverse

/-- **What a VHDL body declares**: each definition it instantiates, once per name. -/
def declarations (ctx : Context) (nl : Netlist) : Attempt (List Declaration) := do
  let primitives ← nl.components.mapM ctx.primitiveDeclaration
  let instances ← nl.instances.mapM ctx.instanceDeclaration
  return firstPerName (primitives.flatten ++ instances.flatten)

/-- **The definition of a circuit**, under a name. -/
def definition (ctx : Context) (c : Circuit) (name : String) : Attempt Definition := do
  let declarations ← ctx.declarations c.netlist
  let sections ← ctx.sections c.netlist
  return {
    name, ports := c.netlist.ports, declarations, signals := c.netlist.signals, sections }

end Context

end Netscribe
