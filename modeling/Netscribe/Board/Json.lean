import Netscribe.Board
import Netscribe.Json.Shape
/-!
# Boards in JSON

The exchange format of boards.  A pin or a resource may leave out everything but the name of the
resource; nothing is checked.

* `Board.toJson`, `Board.ofJson?` — a board.
-/

namespace Netscribe.Board

namespace Pin

def toJson (p : Pin) : Json :=
  .record [
    ("hdl", .nullable .text p.name), ("open", .bool p.isOpen), ("inverted", .bool p.inverted)]

def ofJson? (j : Json) : Option Pin := do
  let f ← j.fields? ["hdl", "open", "inverted"]
  return {
    name := ← f.optional "hdl" none (Json.nullable? Json.text?)
    isOpen := ← f.optional "open" false Json.bool?
    inverted := ← f.optional "inverted" false Json.bool? }

end Pin

namespace Resource

def toJson (r : Resource) : Json :=
  .record [
    ("name", .text r.name), ("bubble_start", .natural r.firstBubble.toNat),
    ("pins", .array (r.pins.map Pin.toJson))]

def ofJson? (j : Json) : Option Resource := do
  let f ← j.fields? ["name", "bubble_start", "pins"]
  return {
    name := ← f.required "name" Json.text?
    firstBubble := ← f.optional "bubble_start" 0 Json.word32?
    pins := ← f.optional "pins" [] (Json.list? Pin.ofJson?) }

end Resource

/-- **Writes a board.** -/
def toJson (b : Board) : Json :=
  .record [("resources", .array (b.resources.map Resource.toJson))]

/-- **Reads a board.** -/
def ofJson? (j : Json) : Option Board := do
  let f ← j.fields? ["resources"]
  return { resources := ← f.optional "resources" [] (Json.list? Resource.ofJson?) }

end Netscribe.Board
