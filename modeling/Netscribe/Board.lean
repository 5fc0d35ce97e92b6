/-!
# Boards

A board is a list of resources, each of which owns a run of inout bubbles, one per pin.  Pins are
mapped to names on the board, left open on purpose, or not mapped at all.

* `Board.Pin`, `Board.Resource`, `Board` — the description.
* `Resource.pinOf?` — the pin that a bubble belongs to.
* `Board.bubble?` — what the board binds a bubble to.
-/

namespace Netscribe

namespace Board

/-- **How a pin of a resource is mapped.** -/
structure Pin where
  name : Option String := none
  /-- It is left open on purpose. -/
  isOpen : Bool := false
  /-- It is active low, and the board inverts it. -/
  inverted : Bool := false
  deriving DecidableEq

namespace Pin

/-- A pin with a name, or one left open on purpose. -/
def isMapped (p : Pin) : Bool :=
  p.name.isSome || p.isOpen

end Pin

/-- **A resource**, the owner of one bubble per pin. -/
structure Resource where
  name : String
  firstBubble : UInt32 := 0
  pins : List Pin := []
  deriving DecidableEq

namespace Resource

/-- The pin at a position. -/
def pin? (r : Resource) (index : Nat) : Option Pin :=
  r.pins[index]?

/-- **The pin that a bubble belongs to**, where the resource owns the bubble. -/
def pinOf? (r : Resource) (bubble : UInt32) : Option Nat :=
  if r.firstBubble ≤ bubble then
    let index := bubble.toNat - r.firstBubble.toNat
    if index < r.pins.length then some index else none
  else none

/-- The first bubble after those the resource owns. -/
def endBubble (r : Resource) : Nat :=
  r.firstBubble.toNat + r.pins.length

/-- The bubbles owned, first and end, where both are words. -/
def bubbles? (r : Resource) : Option (Nat × Nat) :=
  if r.endBubble < UInt32.size then some (r.firstBubble.toNat, r.endBubble) else none

/-- Do two resources' runs of bubbles meet?  A run without bubbles meets one it lies inside of. -/
def overlaps (a b : Resource) : Bool :=
  a.firstBubble.toNat < b.endBubble && b.firstBubble.toNat < a.endBubble

end Resource

/-- **What a bubble is bound to.** -/
inductive Mapping where
  /-- Nothing: its pin is open, or not mapped. -/
  | opened
  | pin (name : String) (inverted : Bool)
  deriving DecidableEq

/-- What a pin binds its bubble to. -/
def Pin.mapping (p : Pin) : Mapping :=
  match p.name with
  | some name => if p.isOpen then .opened else .pin name p.inverted
  | none => .opened

end Board

/-- **A board.** -/
structure Board where
  resources : List Board.Resource := []
  deriving DecidableEq

namespace Board

/-- **What a bubble is bound to**; `none` for a bubble that no resource owns. -/
def bubble? (b : Board) (bubble : UInt32) : Option Mapping :=
  b.resources.findSome? fun r =>
    ((r.pinOf? bubble).bind r.pin?).map Pin.mapping

end Board

end Netscribe
