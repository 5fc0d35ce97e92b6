import Netscribe.Netlist.Basic
/-!
# Designs

All circuits of a design and the one that is generated.

* `Circuit` — a name and a netlist.
* `Design` — the circuits, by position, and the position of the top.
-/

namespace Netscribe

/-- **A circuit.** -/
structure Circuit where
  name : String
  netlist : Netlist := {}
  deriving DecidableEq

/-- **A design.** -/
structure Design where
  circuits : Array Circuit := #[]
  /-- The position of the top circuit. -/
  top : UInt32 := 0
  deriving DecidableEq

namespace Design

/-- The circuit at a position. -/
def circuit? (d : Design) (id : UInt32) : Option Circuit :=
  d.circuits[id.toNat]?

def topCircuit? (d : Design) : Option Circuit :=
  d.circuit? d.top

/-- The circuits with their positions, in order. -/
def numberedCircuits (d : Design) : List (Circuit × Nat) :=
  d.circuits.toList.zipIdx

/-- The first circuit with a name. -/
def find? (d : Design) (name : String) : Option UInt32 :=
  (d.circuits.findIdx? fun c => c.name == name).map UInt32.ofNat

end Design

end Netscribe
