import Netscribe.Diagnostic.Basic
import Netscribe.Json.Shape
/-!
# Diagnostics in reports

The JSON form of a diagnostic: all six fields, in the order of the type.

* `Diagnostic.toJson` — writing one.
* `Diagnostic.ofJson?` — reading one; every field is required.
-/

namespace Netscribe

/-- The severity with a tag. -/
def Severity.ofTag? (tag : String) : Option Severity :=
  Severity.all.find? fun s => s.tag == tag

namespace Diagnostic

/-- The category with a tag. -/
def Category.ofTag? (tag : String) : Option Category :=
  Category.all.find? fun c => c.tag == tag

/-- A case without contents is written as its tag, or as the only key of an object over `null`. -/
def tag? (j : Json) : Option String :=
  match j with
  | .object [(key, .null)] => key
  | _ => j.text?

/-- The JSON form of a code. -/
def Code.toJson (c : Code) : Json :=
  .record [("category", .text c.category.tag), ("number", .natural c.number.toNat)]

def Code.ofJson? (j : Json) : Option Code := do
  let f ← j.fields? ["category", "number"]
  return {
    category := ← f.required "category" fun v => (tag? v).bind Category.ofTag?
    number := ← f.required "number" Json.word16? }

/-- **The JSON form of a diagnostic.** -/
def toJson (d : Diagnostic) : Json :=
  .record [
    ("severity", .text d.severity.tag),
    ("code", d.code.toJson),
    ("message", .text d.message),
    ("scope", .text d.scope),
    ("notes", .texts d.notes),
    ("help", .texts d.help)]

def ofJson? (j : Json) : Option Diagnostic := do
  let f ← j.fields? ["severity", "code", "message", "scope", "notes", "help"]
  return {
    severity := ← f.required "severity" fun v => (tag? v).bind Severity.ofTag?
    code := ← f.required "code" Code.ofJson?
    message := ← f.required "message" Json.text?
    scope := ← f.required "scope" Json.text?
    notes := ← f.required "notes" (Json.list? Json.text?)
    help := ← f.required "help" (Json.list? Json.text?) }

end Diagnostic

end Netscribe
