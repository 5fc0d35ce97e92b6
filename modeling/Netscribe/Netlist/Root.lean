import Netscribe.Netlist.Basic
import Netscribe.Text.Identifier
/-!
# Roots and ranges

Which signal carries a bit.  A bus that is a view has no storage, so its bits are followed to the
parent, with the offset added, until a net with storage is reached.  A chain that ends visits each
net at most once, so there are never more steps than nets.

* `Netlist.rootOf` — the point that carries a point.
* `Netlist.busRange?` — the part of one bus that carries a whole terminal, lowest bit first.
* `Component.terminalIndex?` — the terminal that carries a pin.
-/

namespace Netscribe

/-- The sum of two words, where it is a word again. -/
def addWord? (a b : UInt32) : Option UInt32 :=
  if a.toNat + b.toNat < UInt32.size then some (a + b) else none

namespace Netlist

/-- One step towards the root of a point.  A point outside its net, or whose place in the parent is
no word, has none. -/
inductive Step where
  | root
  | view (next : Point)
  deriving DecidableEq

/-- The step from a point. -/
def step? (nl : Netlist) (p : Point) : Option Step := do
  let net ← nl.net? p.net
  if p.bit < net.width then
    match net.follow? with
    | none => some .root
    | some view => (addWord? p.bit view.offset).map fun bit => .view ⟨view.net, bit⟩
  else none

/-- The root of a point within a number of steps. -/
def rootWithin (nl : Netlist) : Nat → Point → Option Point
  | 0, _ => none
  | steps + 1, p =>
    match nl.step? p with
    | none => none
    | some .root => some p
    | some (.view next) => rootWithin nl steps next

/-- **The root of a point**: the point with storage that carries it. -/
def rootOf (nl : Netlist) (p : Point) : Option Point :=
  nl.rootWithin (nl.nets.size + 1) p

end Netlist

/-- A range of bits of one root bus. -/
structure BusRange where
  net : UInt32
  lo : UInt32
  hi : UInt32
  deriving DecidableEq

/-- **What has become of a range** while the bits of a terminal are looked at one after the other. -/
inductive RangeScan where
  /-- The bits so far lie side by side. -/
  | range (r : BusRange)
  /-- A bit has no root, or one that lies elsewhere. -/
  | broken
  /-- The place where a bit of the bus should lie is no word. -/
  | overflow
  deriving DecidableEq

/-- The range of a scan that has come to its end. -/
def RangeScan.range? : RangeScan → Option BusRange
  | .range r => some r
  | .broken | .overflow => none

/-- A range with the root of bit `i` of the terminal, which has to lie `i` bits above the lowest one
of the range. -/
def BusRange.extend (r : BusRange) (i : Nat) (root : Point) : RangeScan :=
  if root.net = r.net then
    match addWord? r.lo (UInt32.ofNat i) with
    | some place => if root.bit = place then .range { r with hi := root.bit } else .broken
    | none => .overflow
  else .broken

namespace Netlist

/-- A range with the bits of the terminal from bit `i` on. -/
def scanFrom (nl : Netlist) (r : BusRange) (i : Nat) : List (Option Point) → RangeScan
  | [] => .range r
  | bit :: bits =>
    match bit.bind nl.rootOf with
    | none => .broken
    | some root =>
      match r.extend i root with
      | .range r => scanFrom nl r (i + 1) bits
      | stopped => stopped

/-- The bits of a terminal, at least two: the root of the lowest one starts a range if it lies on a
bus. -/
def scan (nl : Netlist) (t : Terminal) : RangeScan :=
  match t.bits with
  | first :: second :: rest =>
    match first.bind nl.rootOf with
    | none => .broken
    | some root =>
      if (nl.net? root.net).any Net.isBus then
        nl.scanFrom ⟨root.net, root.bit, root.bit⟩ 1 (second :: rest)
      else .broken
  | _ => .broken

/-- **The range that carries a terminal**: at least two bits, all on one root bus, each one above
the bit before it. -/
def busRange? (nl : Netlist) (t : Terminal) : Option BusRange :=
  (nl.scan t).range?

end Netlist

/-- **The terminal of an instance that carries a pin**: the first one of the direction whose label
gives the same identifier. -/
def Component.terminalIndex? (c : Component) (label : String) (direction : Direction) :
    Option Nat :=
  c.terminals.findIdx? fun t =>
    t.direction == direction
      && t.label.any fun l => Identifier.ofLabel l == Identifier.ofLabel label

end Netscribe
