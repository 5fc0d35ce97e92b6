import Netscribe.Design.Basic
import Netscribe.Design.Error
/-!
# The hierarchy of a design

A depth-first search for a circuit that instantiates itself.  Circuits below which nothing is left
to find are remembered, so that each is entered once however often it is shared.

* `Design.explore` — the search below one circuit.
* `Design.checkAcyclic` — the search from every circuit.
-/

namespace Netscribe.Design

/-- Searches below circuit `id`, which was reached along `path`; gives back the circuits that are
finished.  A path holds different circuits only, so `levels`, once the number of circuits plus one,
does not run out. -/
def explore (d : Design) : (levels : Nat) → (path : List UInt32) → (id : UInt32) →
    (finished : List UInt32) → Except DesignError (List UInt32)
  | 0, _, _, finished => .ok finished
  | levels + 1, path, id, finished =>
    if id ∈ finished then .ok finished
    else
      match d.circuit? id with
      | none => .error (.unknownCircuit id)
      | some c =>
        if id ∈ path then .error (.cyclicHierarchy c.name)
        else do
          let finished ← c.netlist.children.foldlM
            (fun finished child => explore d levels (id :: path) child finished) finished
          return id :: finished

/-- The positions of all circuits. -/
def ids (d : Design) : List UInt32 :=
  (List.range d.circuits.size).map UInt32.ofNat

/-- **Refuses a design in which a circuit instantiates itself**, directly or through others. -/
def checkAcyclic (d : Design) : Except DesignError Unit := do
  let _ ← d.ids.foldlM (fun finished id => d.explore (d.circuits.size + 1) [] id finished) []
  return ()

end Netscribe.Design
