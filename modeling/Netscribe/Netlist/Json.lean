import Netscribe.Json.Shape
import Netscribe.Netlist.Basic
/-!
# Netlists in JSON

The exchange format of netlists.  Each type has a writer and a reader; a record is written with its
fields in the order of the type, and an absent parent, label or bubble range is left out.

* `Net.toJson`, `Component.toJson`, `Netlist.toJson`, … — writing.
* `Net.ofJson?`, `Component.ofJson?`, `Netlist.ofJson?`, … — reading.
-/

namespace Netscribe

/-- A member that is left out when its value is absent. -/
def Json.memberIf {α : Type} (name : String) (encode : α → Json) : Option α → List (String × Json)
  | none => []
  | some a => [(name, encode a)]

namespace Point

def toJson (p : Point) : Json :=
  .record [("net", .natural p.net.toNat), ("bit", .natural p.bit.toNat)]

def ofJson? (j : Json) : Option Point := do
  let f ← j.fields? ["net", "bit"]
  return { net := ← f.required "net" Json.word32?, bit := ← f.required "bit" Json.word32? }

end Point

namespace View

def toJson (v : View) : Json :=
  .record [("net", .natural v.net.toNat), ("offset", .natural v.offset.toNat)]

def ofJson? (j : Json) : Option View := do
  let f ← j.fields? ["net", "offset"]
  return { net := ← f.required "net" Json.word32?, offset := ← f.optional "offset" 0 Json.word32? }

end View

/-- Writes the points of each bit. -/
def pointListsToJson (lists : List (List Point)) : Json :=
  .array (lists.map fun points => .array (points.map Point.toJson))

/-- Reads the points of each bit. -/
def pointListsOfJson? : Json → Option (List (List Point)) :=
  Json.list? (Json.list? Point.ofJson?)

namespace Net

def toJson (n : Net) : Json :=
  .record (
    [("width", .natural n.width.toNat)] ++ Json.memberIf "parent" View.toJson n.parent ++
    [("forced_root", .bool n.forcedRoot), ("sources", pointListsToJson n.sources),
     ("sinks", pointListsToJson n.sinks)])

def ofJson? (j : Json) : Option Net := do
  let f ← j.fields? ["width", "parent", "forced_root", "sources", "sinks"]
  return {
    width := ← f.required "width" Json.word32?
    parent := ← f.optional "parent" none (Json.nullable? View.ofJson?)
    forcedRoot := ← f.optional "forced_root" false Json.bool?
    sources := ← f.optional "sources" [] pointListsOfJson?
    sinks := ← f.optional "sinks" [] pointListsOfJson? }

end Net

namespace Direction

/-- The direction with a name. -/
def ofText? (name : String) : Option Direction :=
  Direction.all.find? fun d => d.text == name

def toJson (d : Direction) : Json :=
  .text d.text

/-- Reads a direction, written as its name or as the only key of an object over `null`. -/
def ofJson? (j : Json) : Option Direction :=
  match j with
  | .object [(some name, .null)] => ofText? name
  | _ => j.text?.bind ofText?

end Direction

namespace Terminal

def toJson (t : Terminal) : Json :=
  .record (
    [("direction", t.direction.toJson)] ++ Json.memberIf "label" Json.text t.label ++
    [("bits", .array (t.bits.map (Json.nullable Point.toJson)))])

def ofJson? (j : Json) : Option Terminal := do
  let f ← j.fields? ["direction", "label", "bits"]
  return {
    direction := ← f.required "direction" Direction.ofJson?
    label := ← f.optional "label" none (Json.nullable? Json.text?)
    bits := ← f.required "bits" (Json.list? (Json.nullable? Point.ofJson?)) }

end Terminal

namespace BubbleRange

/-- Writes a range of bubbles. -/
def toJson (r : BubbleRange) : Json :=
  .record [("start", .natural r.first.toNat), ("end", .natural r.last.toNat)]

/-- Reads a range of bubbles. -/
def ofJson? (j : Json) : Option BubbleRange := do
  let f ← j.fields? ["start", "end"]
  return { first := ← f.required "start" Json.word32?, last := ← f.required "end" Json.word32? }

end BubbleRange

namespace Bubbles

/-- Writes the bubbles of a component. -/
def toJson (b : Bubbles) : Json :=
  .record (
    Json.memberIf "input" BubbleRange.toJson b.input ++
    Json.memberIf "output" BubbleRange.toJson b.output ++
    Json.memberIf "inout" BubbleRange.toJson b.inout)

/-- Reads the bubbles of a component. -/
def ofJson? (j : Json) : Option Bubbles := do
  let f ← j.fields? ["input", "output", "inout"]
  return {
    input := ← f.optional "input" none (Json.nullable? BubbleRange.ofJson?)
    output := ← f.optional "output" none (Json.nullable? BubbleRange.ofJson?)
    inout := ← f.optional "inout" none (Json.nullable? BubbleRange.ofJson?) }

end Bubbles

namespace Attribute

/-- Writes an attribute as the bare value. -/
def toJson : Attribute → Json
  | .int value => .integer value.toInt
  | .bool value => .bool value
  | .text value => .text value

/-- Reads an attribute: an integer of 64 bits, a truth value or a text. -/
def ofJson? (j : Json) : Option Attribute :=
  match j with
  | .integer _ => j.int64?.map .int
  | .bool value => some (.bool value)
  | .string (some value) => some (.text value)
  | _ => none

end Attribute

/-- Writes attributes as an object. -/
def attributesToJson (attributes : Attributes) : Json :=
  .record (attributes.toList.map fun e => (e.1, e.2.toJson))

/-- Reads attributes; of several with one name the last counts. -/
def attributesOfJson? (j : Json) : Option Attributes := do
  let members ← j.members?
  let entries ← members.mapM fun m => (Attribute.ofJson? m.2).map (m.1, ·)
  return Dictionary.ofList entries

namespace Kind

/-- Writes a kind: a pin as a bare name, any other as the only key of an object. -/
def toJson : Kind → Json
  | .pin => .text "pin"
  | .primitive factory attributes =>
    .record [("primitive",
      .record [("factory", .text factory), ("attributes", attributesToJson attributes)])]
  | .instance circuit gated =>
    .record [("subcircuit",
      .record [("circuit", .natural circuit.toNat), ("gated", .bool gated)])]

/-- Reads the contents of a primitive. -/
def primitiveOfJson? (j : Json) : Option Kind := do
  let f ← j.fields? ["factory", "attributes"]
  return .primitive (← f.required "factory" Json.text?)
    (← f.optional "attributes" .empty attributesOfJson?)

/-- Reads the contents of an instance. -/
def instanceOfJson? (j : Json) : Option Kind := do
  let f ← j.fields? ["circuit", "gated"]
  return .instance (← f.required "circuit" Json.word32?) (← f.optional "gated" false Json.bool?)

def ofJson? : Json → Option Kind
  | .string (some "pin") => some .pin
  | .object [(some "pin", .null)] => some .pin
  | .object [(some "primitive", j)] => primitiveOfJson? j
  | .object [(some "subcircuit", j)] => instanceOfJson? j
  | _ => none

end Kind

namespace Component

def toJson (c : Component) : Json :=
  .record [
    ("label", .text c.label),
    ("kind", c.kind.toJson),
    ("ends", .array (c.terminals.map Terminal.toJson)),
    ("bubbles", c.bubbles.toJson)]

def ofJson? (j : Json) : Option Component := do
  let f ← j.fields? ["label", "kind", "ends", "bubbles"]
  return {
    label := ← f.optional "label" "" Json.text?
    kind := ← f.optional "kind" .pin Kind.ofJson?
    terminals := ← f.optional "ends" [] (Json.list? Terminal.ofJson?)
    bubbles := ← f.optional "bubbles" {} Bubbles.ofJson? }

end Component

namespace ClockSource

def toJson (c : ClockSource) : Json :=
  .record [
    ("component", c.component.toJson),
    ("tree", .nullable (fun tree => .natural tree.toNat) c.tree)]

def ofJson? (j : Json) : Option ClockSource := do
  let f ← j.fields? ["component", "tree"]
  return {
    component := ← f.required "component" Component.ofJson?
    tree := ← f.optional "tree" none (Json.nullable? Json.word32?) }

end ClockSource

/-- Writes a list of components. -/
def componentsToJson (components : List Component) : Json :=
  .array (components.map Component.toJson)

namespace Netlist

/-- The fields of a netlist, in order. -/
def fieldNames : List String :=
  ["nets", "components", "subcircuits", "inputs", "outputs", "inouts", "clock_sources",
   "clock_trees", "requires_global_clock", "input_bubbles", "output_bubbles", "inout_bubbles"]

/-- **Writes a netlist.** -/
def toJson (nl : Netlist) : Json :=
  .record [
    ("nets", .array (nl.nets.toList.map Net.toJson)),
    ("components", componentsToJson nl.components),
    ("subcircuits", componentsToJson nl.instances),
    ("inputs", componentsToJson nl.inputs),
    ("outputs", componentsToJson nl.outputs),
    ("inouts", componentsToJson nl.inouts),
    ("clock_sources", .array (nl.clockSources.map ClockSource.toJson)),
    ("clock_trees", .natural nl.clockTrees.toNat),
    ("requires_global_clock", .bool nl.requiresGlobalClock),
    ("input_bubbles", .natural nl.inputBubbles.toNat),
    ("output_bubbles", .natural nl.outputBubbles.toNat),
    ("inout_bubbles", .natural nl.inoutBubbles.toNat)]

/-- **Reads a netlist**; every field may be missing. -/
def ofJson? (j : Json) : Option Netlist := do
  let f ← j.fields? fieldNames
  let components (name : String) := f.optional name [] (Json.list? Component.ofJson?)
  return {
    nets := (← f.optional "nets" [] (Json.list? Net.ofJson?)).toArray
    components := ← components "components"
    instances := ← components "subcircuits"
    inputs := ← components "inputs"
    outputs := ← components "outputs"
    inouts := ← components "inouts"
    clockSources := ← f.optional "clock_sources" [] (Json.list? ClockSource.ofJson?)
    clockTrees := ← f.optional "clock_trees" 0 Json.word32?
    requiresGlobalClock := ← f.optional "requires_global_clock" false Json.bool?
    inputBubbles := ← f.optional "input_bubbles" 0 Json.word32?
    outputBubbles := ← f.optional "output_bubbles" 0 Json.word32?
    inoutBubbles := ← f.optional "inout_bubbles" 0 Json.word32? }

end Netlist

end Netscribe
