import Netscribe.Design.Validation
import Netscribe.Json.Reader
import Netscribe.Json.Writer
import Netscribe.Netlist.Json
/-!
# Designs in JSON

* `Design.toJson`, `Design.ofJson?` — the exchange format of a design.
* `Design.load` — a design from its text, checked.
-/

namespace Netscribe

namespace Circuit

def toJson (c : Circuit) : Json :=
  .record [("name", .text c.name), ("netlist", c.netlist.toJson)]

def ofJson? (j : Json) : Option Circuit := do
  let f ← j.fields? ["name", "netlist"]
  return {
    name := ← f.required "name" Json.text?
    netlist := ← f.optional "netlist" {} Netlist.ofJson? }

end Circuit

/-- Why a text gives no design. -/
inductive LoadError where
  /-- The text is no JSON, or has another shape. -/
  | unreadable
  | refused (cause : DesignError)
  deriving DecidableEq

namespace Design

/-- **Writes a design.** -/
def toJson (d : Design) : Json :=
  .record [
    ("circuits", .array (d.circuits.toList.map Circuit.toJson)),
    ("top", .natural d.top.toNat)]

/-- **Reads a design.** -/
def ofJson? (j : Json) : Option Design := do
  let f ← j.fields? ["circuits", "top"]
  return {
    circuits := (← f.required "circuits" (Json.list? Circuit.ofJson?)).toArray
    top := ← f.required "top" Json.word32? }

/-- The text of a design. -/
def render (d : Design) : String :=
  d.toJson.render

/-- **The design of a text**, when it passes the check. -/
def load (text : String) : Except LoadError Design :=
  match (Json.parse? text).bind ofJson? with
  | none => .error .unreadable
  | some d =>
    match d.validate with
    | .error cause => .error (.refused cause)
    | .ok () => .ok d

end Design

end Netscribe
