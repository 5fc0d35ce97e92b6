import Netscribe.Design.Json
import Netscribe.Files.System
import Netscribe.Project.File
/-!
# Workspaces

The directory of a project with everything a command needs of it: the checked project and the
checked design, whose top is the circuit that the project names.

* `CommandError` — why a command ends without result, with `CommandError.message`.
* `findProject` — the directory of the project.
* `Workspace`, `Workspace.open` — a project that was found and read.
-/

namespace Netscribe

/-- **A cause for which a command ends without result.** -/
inductive CommandError where
  /-- There is no project here or above. -/
  | noProject (start : String)
  /-- The file of the project cannot be read. -/
  | projectFile (cause : FileError)
  | project (cause : ProjectError)
  /-- The file of the design cannot be read. -/
  | designFile (cause : FileError)
  /-- The text of the design is no JSON, or has another shape. -/
  | designText
  | design (cause : DesignError)
  /-- The design has no circuit of the name the project gives. -/
  | noTop (name path : String)
  /-- The design has no circuit of the name the user gives. -/
  | noCircuit (name : String)
  deriving DecidableEq

/-- The text shown for a cause. -/
def CommandError.message : CommandError → String
  | .noProject start =>
    "could not find " ++ Project.fileName ++ " in " ++ start ++ " or any parent directory"
  | .projectFile cause => "failed to read configuration: " ++ cause.message
  | .project cause => cause.message
  | .designFile cause => "failed to read netlist: " ++ cause.message
  | .designText => "failed to parse netlist"
  | .design cause => cause.message
  | .noTop name path => "top circuit `" ++ name ++ "` not found in " ++ path
  | .noCircuit name => "circuit `" ++ name ++ "` not found in the design"

/-- **A project that was found and read.** -/
structure Workspace where
  directory : String
  project : Project
  design : Design

variable {m : Type → Type} [Monad m]

/-! ## Finding the project -/

/-- Looks for a project in a directory and at most `levels` above it. -/
def searchUpwards (fs : FileSystem m) : (levels : Nat) → String → m (Option String)
  | 0, _ => return none
  | levels + 1, directory => do
    if ← fs.pathExists (Path.join directory Project.fileName) then return some directory
    else
      match Path.parent? directory with
      | some above => searchUpwards fs levels above
      | none => return none

/-- **The directory of the project**: the one that was given, or that of the file that was given;
otherwise the nearest one with a project file, from the current directory upwards. -/
def findProject (fs : FileSystem m) (config : Option String) : m (Except CommandError String) := do
  match config with
  | some path =>
    if ← fs.isFile path then return .ok ((Path.parent? path).getD ".") else return .ok path
  | none =>
    let start ← fs.currentDirectory
    match ← searchUpwards fs (start.length + 1) start with
    | some directory => return .ok directory
    | none => return .error (.noProject start)

/-! ## Reading it -/

namespace Workspace

/-- The project of a text read from a file. -/
def projectOf : Except FileError String → Except CommandError Project
  | .error cause => .error (.projectFile cause)
  | .ok text =>
    match Project.load text with
    | .error cause => .error (.project cause)
    | .ok p => .ok p

/-- The design of a text read from a file. -/
def designOf : Except FileError String → Except CommandError Design
  | .error cause => .error (.designFile cause)
  | .ok text =>
    match Design.load text with
    | .error .unreadable => .error .designText
    | .error (.refused cause) => .error (.design cause)
    | .ok d => .ok d

/-- The design with the circuit of a name as its top. -/
def withTop (name path : String) (d : Design) : Except CommandError Design :=
  match d.find? name with
  | none => .error (.noTop name path)
  | some top => .ok { d with top }

/-- Reads the project in a directory and its design. -/
def read (fs : FileSystem m) (directory : String) : m (Except CommandError Workspace) := do
  match projectOf (← fs.readText (Path.join directory Project.fileName)) with
  | .error cause => return .error cause
  | .ok project =>
    let path := Path.join directory project.netlist
    match (designOf (← fs.readText path)).bind (withTop project.top path) with
    | .error cause => return .error cause
    | .ok design => return .ok { directory, project, design }

/-- **Finds and reads a project.** -/
def «open» (fs : FileSystem m) (config : Option String) : m (Except CommandError Workspace) := do
  match ← findProject fs config with
  | .error cause => return .error cause
  | .ok directory => read fs directory

end Workspace

end Netscribe
