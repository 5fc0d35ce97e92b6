import Netscribe.Circuit.Ports
import Netscribe.Primitive.Gate
import Netscribe.Primitive.Multiplexer
/-!
# Primitives and their registry

A component asks for a primitive by the name of a factory.  The registry says which factory a name
stands for, and the factory makes the primitive from the component's attributes.

* `Primitive` — a gate, or a multiplexer of some width.
* `Factory` — what makes primitives.
* `Registry` — factories by name, with `Registry.resolve?`.
-/

namespace Netscribe

/-- **A primitive.** -/
inductive Primitive where
  /-- A gate, written into the body that uses it. -/
  | gate (g : Gate)
  /-- A multiplexer of a data width, a definition of its own. -/
  | multiplexer (width : UInt32)
  deriving DecidableEq

namespace Primitive

/-- The name of the definition. -/
def name : Primitive → String
  | .gate g => g.name ++ "_GATE"
  | .multiplexer width => Multiplexer.name width.toNat

/-- The directory for the definition's files. -/
def directory : Primitive → String
  | .gate _ => "gates"
  | .multiplexer _ => "plexers"

/-- Is the primitive written into the body that uses it, without a definition? -/
def isInlined : Primitive → Bool
  | .gate _ => true
  | .multiplexer _ => false

/-- The definition under a name, for a primitive that has one. -/
def definition? (name : String) : Primitive → Option Definition
  | .gate _ => none
  | .multiplexer width => some (Multiplexer.definition name width.toNat)

/-- What a placed primitive writes into the body that uses it. -/
def inlined (nl : Netlist) (name : String) (id : Nat) (c : Component) :
    Primitive → Attempt (List Assignment)
  | .gate g => g.assignments nl (Names.instanceLabel name id) c
  | .multiplexer _ => return []

/-- The instances by which a placed primitive is used. -/
def instances (nl : Netlist) (name : String) (id : Nat) (c : Component) :
    Primitive → Attempt (List Statement)
  | .gate _ => return []
  | .multiplexer _ => do
    let bindings ← Multiplexer.bindings nl c
    return [.instance name (Names.instanceLabel name id) bindings]

end Primitive

/-- **What makes primitives from attributes.** -/
inductive Factory where
  /-- Makes a gate, whatever the attributes. -/
  | gate (g : Gate)
  /-- Makes a multiplexer of the width the attributes ask for. -/
  | multiplexer
  deriving DecidableEq

/-- The primitive made from attributes, if they describe one. -/
def Factory.primitive? (attributes : Attributes) : Factory → Option Primitive
  | .gate g => some (.gate g)
  | .multiplexer => (Multiplexer.dataWidth? attributes).map .multiplexer

/-- **Factories by name.** -/
structure Registry where
  /-- The entries; the first one with a name counts. -/
  entries : List (String × Factory) := []
  deriving DecidableEq

namespace Registry

def empty : Registry := {}

/-- The factory with a name. -/
def factory? (r : Registry) (name : String) : Option Factory :=
  r.entries.lookup name

/-- Puts a factory under a name, in place of one there. -/
def register (r : Registry) (name : String) (factory : Factory) : Registry :=
  ⟨(name, factory) :: r.entries⟩

/-- **All built-in factories** under their own names. -/
def builtins : Registry :=
  ⟨(Gate.all.map fun g => (g.name, Factory.gate g)) ++ [("Multiplexer", .multiplexer)]⟩

/-- **The primitive a component asks for**, where it is one that the registry knows. -/
def resolve? (r : Registry) (c : Component) : Option Primitive :=
  match c.kind with
  | .primitive name attributes => (r.factory? name).bind (Factory.primitive? attributes)
  | _ => none

end Registry

end Netscribe
