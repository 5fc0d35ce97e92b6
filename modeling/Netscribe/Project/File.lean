import Netscribe.Project.Basic
import Netscribe.Toml.Reader
import Netscribe.Toml.Shape
/-!
# Project files

A project is described in TOML, in three sections: `project`, `hdl` and `board`.  Whatever the
sections do not know is passed over.

* `Project.fileName` — the name of the file.
* `Project.ofToml?` — a project from the value of its file.
* `Project.load` — a project from the text of its file, checked.
-/

namespace Netscribe

namespace Board

def Pin.ofToml? (v : Toml) : Option Pin := do
  let f ← v.fields? ["hdl", "open", "inverted"]
  return {
    name := ← f.optional "hdl" none fun v => v.text?.map some
    isOpen := ← f.optional "open" false Toml.bool?
    inverted := ← f.optional "inverted" false Toml.bool? }

def Resource.ofToml? (v : Toml) : Option Resource := do
  let f ← v.fields? ["name", "bubble_start", "pins"]
  return {
    name := ← f.required "name" Toml.text?
    firstBubble := ← f.optional "bubble_start" 0 Toml.word32?
    pins := ← f.optional "pins" [] (Toml.list? Pin.ofToml?) }

def ofToml? (v : Toml) : Option Board := do
  let f ← v.fields? ["resources"]
  return { resources := ← f.optional "resources" [] (Toml.list? Resource.ofToml?) }

end Board

namespace Project

/-- The name of a project's file. -/
def fileName : String := "circa.toml"

/-- Reads the name of a language. -/
def dialectOfToml? (v : Toml) : Option Dialect :=
  v.choice?.bind Dialect.ofName?

/-- Reads the section that names the project and its design. -/
def namedByToml? (v : Toml) : Option Project := do
  let f ← v.fields? ["name", "top", "netlist", "description"]
  return {
    name := ← f.required "name" Toml.text?
    top := ← f.required "top" Toml.text?
    netlist := ← f.optional "netlist" "netlist.json" Toml.text?
    description := ← f.optional "description" "" Toml.text? }

/-- Reads the section that says how a project is written. -/
def writtenByToml? (p : Project) (v : Toml) : Option Project := do
  let f ← v.fields? ["dialect", "output_dir", "system_clock"]
  return { p with
    dialect := ← f.optional "dialect" .vhdl dialectOfToml?
    outputDirectory := ← f.optional "output_dir" "hdl" Toml.text?
    systemClock := ← f.optional "system_clock" "sysclk" Toml.text? }

/-- **Reads a project.** -/
def ofToml? (v : Toml) : Option Project := do
  let f ← v.fields? ["project", "hdl", "board"]
  let p ← f.required "project" namedByToml?
  let p ← f.optional "hdl" p p.writtenByToml?
  return { p with board := ← f.optional "board" {} Board.ofToml? }

/-- **The project of a text**, when it passes the check. -/
def load (text : String) : Except ProjectError Project :=
  match (Toml.parse? text).bind ofToml? with
  | none => .error .unreadable
  | some p =>
    match p.check with
    | .error cause => .error cause
    | .ok () => .ok p

end Project

end Netscribe
