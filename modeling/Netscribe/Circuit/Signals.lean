import Netscribe.Circuit.Names
import Netscribe.Hdl.Module
import Netscribe.Netlist.Root
/-!
# Signals of a circuit

A net of one bit and a root bus have a signal each.  A point is carried by the signal of its root:
the whole signal of a single wire, or one bit of a bus.

* `Netlist.signals` — the declared signals.
* `Netlist.signalOf` — what carries a point.
-/

namespace Netscribe.Netlist

/-- **The signals of a circuit**: the single wires in net order, and then the root buses. -/
def signals (nl : Netlist) : List Signal :=
  let wires := nl.numberedNets.filter fun (net, _) => !net.isBus
  let buses := nl.numberedNets.filter fun (net, _) => net.isBus && net.isRoot
  wires.map (fun (_, id) => ⟨Names.net id, 1⟩)
    ++ buses.map fun (net, id) => ⟨Names.bus id, net.width.toNat⟩

/-- The bits of a net's own signal that a bit of it stands for. -/
def bitOfNet (net : Net) (id bit : Nat) : Ref :=
  if net.isBus then .bit (Names.bus id) bit else .whole (Names.net id)

/-- **What carries a point**, where it has a root. -/
def signalOf (nl : Netlist) (p : Point) : Option Ref := do
  let root ← nl.rootOf p
  let net ← nl.net? root.net
  return bitOfNet net root.net.toNat root.bit.toNat

def signalAt (nl : Netlist) (connection : Option Point) : Option Ref :=
  connection.bind nl.signalOf

end Netscribe.Netlist
