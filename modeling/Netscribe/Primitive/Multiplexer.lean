import Netscribe.Circuit.Wiring
/-!
# Multiplexers

A two-way multiplexer is a definition of its own, one per data width.  The terminals of a placed one
are the output, the two inputs and the select line.

* `Multiplexer.definition` — the definition for a width.
* `Multiplexer.bindings` — what the ports of a placed multiplexer are connected to.
* `Multiplexer.dataWidth?` — the width that attributes ask for.
-/

namespace Netscribe.Multiplexer

/-- The ports for a data width, in order of declaration. -/
def ports (width : Nat) : List Port :=
  [⟨.input, "Sel", 1⟩, ⟨.input, "MuxIn_0", width⟩, ⟨.input, "MuxIn_1", width⟩,
   ⟨.output, "MuxOut", width⟩]

/-- The ports in the order of the terminals of a placed multiplexer. -/
def terminalPorts : List String :=
  ["MuxOut", "MuxIn_0", "MuxIn_1", "Sel"]

/-- The name of the definition for a data width. -/
def name (width : Nat) : String :=
  "Multiplexer_" ++ toString width

/-- A signal as an operand. -/
def operandOf (signal : String) : Operand :=
  .ref (.whole signal)

def selection : Assignment :=
  ⟨.whole "MuxOut", .choice (operandOf "Sel") (operandOf "MuxIn_0") (operandOf "MuxIn_1")⟩

/-- **The definition for a data width**, under a name. -/
def definition (name : String) (width : Nat) : Definition :=
  { name, ports := ports width, sections := [⟨none, [.assign selection]⟩] }

/-- **What the ports of a placed multiplexer are connected to.** -/
def bindings (nl : Netlist) (c : Component) : Attempt (List (String × Binding)) :=
  terminalPorts.zipIdx.mapM fun (port, index) => do
    let binding ← nl.terminalBinding port c index
    return (port, binding)

/-- **The width that attributes ask for**: one where none is given, and nothing where it is no
positive word. -/
def dataWidth? (attributes : Attributes) : Option UInt32 :=
  match attributes.get? "width" with
  | none => some 1
  | some (.int width) =>
    if 0 < width.toInt ∧ width.toInt < UInt32.size then some (UInt32.ofNat width.toInt.toNat)
    else none
  | some _ => none

end Netscribe.Multiplexer
