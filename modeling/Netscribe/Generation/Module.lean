import Netscribe.Digest
import Netscribe.Hdl.Module
import Netscribe.Json.Basic
/-!
# Generated modules

A definition written in one language, ready to be stored: its name, the directory it belongs to,
the lines of its two parts and the digest of all lines.

* `GeneratedModule` — the module.
* `GeneratedModule.ofDefinition` — a definition written in a language.
* `GeneratedModule.files` — the files it is stored in.
* `ModuleSummary` — what is said of a module once it is taken.
-/

namespace Netscribe

/-- **A definition written in a language.** -/
structure GeneratedModule where
  name : String
  /-- The directory its files belong to, below that of the language. -/
  directory : String
  interface : List String
  body : List String
  deriving DecidableEq

/-- What is said of a module that was taken. -/
structure ModuleSummary where
  name : String
  directory : String
  digest : Digest
  lineCount : Nat
  deriving DecidableEq

/-- The summary of a module in a report. -/
def ModuleSummary.toJson (s : ModuleSummary) : Json :=
  .record [
    ("name", .text s.name),
    ("relative_directory", .text s.directory),
    ("content_hash", .text s.digest.text),
    ("lines", .natural s.lineCount)]

namespace GeneratedModule

/-- **A definition written in a language**, for a directory. -/
def ofDefinition (d : Dialect) (directory : String) (m : Definition) : GeneratedModule :=
  ⟨m.name, directory, m.interface d, m.body d⟩

/-- All lines, the interface first. -/
def lines (m : GeneratedModule) : List String :=
  m.interface ++ m.body

/-- The digest of all lines. -/
def digest (m : GeneratedModule) : Digest :=
  .ofLines m.lines

/-- The files of the module, each with its lines. -/
def files (d : Dialect) (m : GeneratedModule) : List (String × List String) :=
  d.moduleFiles m.name m.interface m.body

/-- The summary of the module. -/
def summary (m : GeneratedModule) : ModuleSummary :=
  ⟨m.name, m.directory, m.digest, m.lines.length⟩

def toJson (m : GeneratedModule) : Json :=
  .record [
    ("name", .text m.name),
    ("relative_directory", .text m.directory),
    ("interface", .texts m.interface),
    ("body", .texts m.body),
    ("content_hash", .text m.digest.text)]

end GeneratedModule

end Netscribe
