import Netscribe.Circuit.Body
/-!
# The top-level instance

The top circuit as it is instantiated on a board.

* `Context.boardInstance` — the instance, where there is a top circuit.
-/

namespace Netscribe.Context

/-- **The instance of the top circuit on a board**; nothing for a design without top. -/
def boardInstance (ctx : Context) (board : Board) : Attempt (List Statement) :=
  match ctx.design.topCircuit? with
  | none => return []
  | some top => do
    let name := Names.definition top.name false
    let bindings ← top.netlist.boardBindings board
    return [.instance name (Names.instanceLabel name 1) bindings]

end Netscribe.Context
