import Netscribe.Board
import Netscribe.Hdl.Dialect
/-!
# Projects

What a project is about: the design it generates, how it is written, and the board it runs on.

* `Project` — the description.
* `ProjectError` — why a description is refused, with `ProjectError.message`.
* `Project.check` — the rules a description must keep.
-/

namespace Netscribe

/-- **A project.** -/
structure Project where
  name : String
  /-- The name of the top circuit. -/
  top : String
  /-- The path of the design, from the directory of the project. -/
  netlist : String := "netlist.json"
  description : String := ""
  dialect : Dialect := .vhdl
  /-- The directory for generated files, from the directory of the project. -/
  outputDirectory : String := "hdl"
  /-- The label of the system clock. -/
  systemClock : String := "sysclk"
  board : Board := {}
  deriving DecidableEq

/-- **A cause for refusing a project.** -/
inductive ProjectError where
  /-- The text is no TOML, or has another shape. -/
  | unreadable
  | missing (field : String)
  /-- A resource owns bubbles that have no number. -/
  | pastLastBubble (resource : String)
  /-- A pin is left open and has a name all the same. -/
  | openAndMapped (pin : Nat) (resource : String)
  /-- Two resources own the same bubbles. -/
  | overlapping (first second : String)
  deriving DecidableEq

/-- The text shown for a cause. -/
def ProjectError.message : ProjectError → String
  | .unreadable => "failed to parse configuration"
  | .missing field => "missing required field: " ++ field
  | .pastLastBubble resource =>
    "validation error: board resource '" ++ resource ++ "' extends past the last inout bubble"
  | .openAndMapped pin resource =>
    "validation error: pin " ++ toString pin ++ " of board resource '" ++ resource ++
      "' is both open and mapped"
  | .overlapping first second =>
    "validation error: board resources '" ++ first ++ "' and '" ++ second ++
      "' own overlapping inout bubbles"

/-! ## Checking -/

namespace Board

/-- Refuses a resource whose bubbles have no numbers, or with a pin both open and mapped. -/
def Resource.check (r : Resource) : Except ProjectError Unit :=
  if r.bubbles?.isNone then .error (.pastLastBubble r.name)
  else
    match r.pins.findIdx? fun p => p.isOpen && p.name.isSome with
    | some pin => .error (.openAndMapped pin r.name)
    | none => .ok ()

/-- Refuses a resource whose bubbles meet those of one after it. -/
def checkApart : List Resource → Except ProjectError Unit
  | [] => .ok ()
  | r :: rest =>
    match rest.find? r.overlaps with
    | some other => .error (.overlapping r.name other.name)
    | none => checkApart rest

/-- **Checks a board**: each resource alone, and then every two of them. -/
def check (b : Board) : Except ProjectError Unit := do
  b.resources.forM Resource.check
  checkApart b.resources

end Board

namespace Project

def checkField (field value : String) : Except ProjectError Unit :=
  if value.isEmpty then .error (.missing field) else .ok ()

/-- **Checks a project.** -/
def check (p : Project) : Except ProjectError Unit := do
  checkField "project.name" p.name
  checkField "project.top" p.top
  checkField "hdl.output_dir" p.outputDirectory
  p.board.check

end Project

end Netscribe
