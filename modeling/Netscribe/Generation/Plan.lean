import Netscribe.Circuit.Body
/-!
# Plans

Before anything is written, the design is walked from its top: which definitions are needed, in
which order, and where in the hierarchy each was first met.  The primitives of a circuit come
first, then the circuits it instantiates, and then the circuit itself; a name that was handled
before is passed over.  Neither the language nor the place of the output matters to a plan.

* `Task` — one definition to write.
* `Plan` — tasks, the names handled so far, and the fault at which the walk ended, if any.
* `Plan.visit` — the walk through one circuit and all it instantiates.
* `Context.plan` — the plan of a design.
-/

namespace Netscribe

/-- Where a definition comes from. -/
inductive Origin where
  /-- A circuit, by position, or its clock-gated variant. -/
  | circuit (id : UInt32) (gated : Bool)
  | primitive (p : Primitive)
  deriving DecidableEq

/-- **A definition to write.** -/
structure Task where
  origin : Origin
  directory : String
  /-- The instances from the top down to where it was first met. -/
  path : List String
  definition : Attempt Definition

/-- The text of a path, to which diagnostics are attributed. -/
def scopeText (path : List String) : String :=
  String.intercalate "/" path

/-- The scope of a task. -/
def Task.scope (t : Task) : String :=
  scopeText t.path

/-- **What a run will do**, as far as the walk has come. -/
structure Plan where
  /-- The definitions to write, in order. -/
  tasks : List Task := []
  /-- The names that need no further definition. -/
  handled : List String := []
  /-- The fault at which the walk ended, and where. -/
  fault : Option (List String × Fault) := none

/-- The directory for the files of circuits. -/
def circuitDirectory : String := "circuit"

namespace Plan

/-- Has the walk ended at a fault? -/
def isHalted (p : Plan) : Bool :=
  p.fault.isSome

/-- Ends the walk at a fault. -/
def halt (p : Plan) (path : List String) (fault : Fault) : Plan :=
  { p with fault := some (path, fault) }

/-- Remembers a name as handled. -/
def mark (p : Plan) (name : String) : Plan :=
  { p with handled := name :: p.handled }

/-- Adds a task for a name, which is handled by it. -/
def add (p : Plan) (name : String) (task : Task) : Plan :=
  { p with tasks := p.tasks ++ [task], handled := name :: p.handled }

/-- Plans the primitive that a component asks for. -/
def component (ctx : Context) (path : List String) (p : Plan) (c : Component) : Plan :=
  if p.isHalted then p
  else
    match (ctx.resolve c).outcome with
    | .error fault => p.halt path fault
    | .ok primitive =>
      let name := primitive.name
      if name ∈ p.handled then p
      else
        match primitive.definition? name with
        | none => p.mark name
        | some definition =>
          p.add name ⟨.primitive primitive, primitive.directory, path, .succeed definition⟩

/-- Plans the definition of a circuit under the name of the variant. -/
def circuit (ctx : Context) (path : List String) (id : UInt32) (gated : Bool) (c : Circuit)
    (p : Plan) : Plan :=
  let name := Names.definition c.name gated
  if p.isHalted || name ∈ p.handled then p
  else p.add name ⟨.circuit id gated, circuitDirectory, path, ctx.definition c name⟩

/-- What an instance adds to the path: its label, or the name of the definition where it has
none. -/
def segment (label definition : String) : String :=
  if label.isEmpty then definition else Identifier.ofLabel label

/-- Plans what an instance stands for, given the walk through a circuit. -/
def «instance» (ctx : Context) (path : List String)
    (walk : List String → UInt32 → Bool → Circuit → Plan → Plan) (p : Plan) (c : Component) : Plan :=
  if p.isHalted then p
  else
    match (ctx.target c).outcome with
    | .error fault => p.halt path fault
    | .ok none => p
    | .ok (some (id, child, gated)) =>
      let name := Names.definition child.name gated
      if name ∈ p.handled then p
      else walk (path ++ [segment c.label name]) id gated child p

/-- **The walk through a circuit** and at most `levels` circuits on any path below it. -/
def visit (ctx : Context) : (levels : Nat) → (path : List String) → (id : UInt32) →
    (gated : Bool) → Circuit → Plan → Plan
  | 0, _, _, _, _, p => p
  | levels + 1, path, id, gated, c, p =>
    let p := c.netlist.components.foldl (component ctx path) p
    let p := c.netlist.instances.foldl (Plan.instance ctx path (visit ctx levels)) p
    circuit ctx path id gated c p

end Plan

namespace Context

def top (ctx : Context) : Attempt Circuit :=
  .orFail (.missingCircuit "" ctx.design.top) ctx.design.topCircuit?

/-- **The plan of a design** with a top circuit.  Where no circuit instantiates itself, no path is
longer than the number of circuits. -/
def plan (ctx : Context) (top : Circuit) : Plan :=
  Plan.visit ctx ctx.design.circuits.size [Identifier.ofLabel top.name] ctx.design.top false top {}

end Context

end Netscribe
