import Netscribe.Circuit.TopLevel
import Netscribe.Command.Output
import Netscribe.Command.Workspace
/-!
# Inspecting

The command that prints what a circuit looks like from outside: its ports, its signals and, for the
top circuit, how it is instantiated on the board.

* `inspect` — the command.
-/

namespace Netscribe

/-- The lines on the ports and signals of a circuit. -/
def circuitLines (c : Circuit) : List String :=
  let ports := c.netlist.ports.map fun p =>
    "  " ++ Text.padRight 6 p.direction.text ++ " " ++ alignName p.name ++ " " ++ toString p.width
  let signals := c.netlist.signals.map fun s =>
    "  " ++ Text.padRight 42 s.name ++ " " ++ toString s.width
  ["circuit " ++ c.name, "ports:"] ++ ports ++ ["signals:"] ++ signals

/-- The lines on the top circuit as an instance. -/
def instanceLines (dialect : Dialect) (statements : List Statement) : List String :=
  ("top-level instance (" ++ dialect.name ++ "):") :: statements.flatMap (Statement.lines dialect)

/-- The circuit with a name, or else the top. -/
def chosenCircuit (design : Design) : Option String → Except CommandError UInt32
  | none => .ok design.top
  | some name =>
    match design.find? name with
    | some id => .ok id
    | none => .error (.noCircuit name)

/-- What is printed of a circuit. -/
def circuitOutput (colour quiet : Bool) (dialect : Dialect) (w : Workspace) (id : UInt32)
    (c : Circuit) : Output :=
  if id = w.design.top then
    let placed := Context.boardInstance { design := w.design } w.project.board
    let statements := placed.outcome.toOption.getD []
    { stdout := linesText (circuitLines c ++ instanceLines dialect statements),
      stderr := if quiet then "" else diagnosticsText colour (placed.reports "") }
  else { stdout := linesText (circuitLines c) }

/-- **Prints a circuit of a workspace.** -/
def inspect (colour quiet : Bool) (circuit : Option String) (dialect : Option Dialect)
    (w : Workspace) : Except CommandError Output := do
  let id ← chosenCircuit w.design circuit
  match w.design.circuit? id with
  | none => throw (.noCircuit (toString id))
  | some c => return circuitOutput colour quiet (dialect.getD w.project.dialect) w id c

end Netscribe
