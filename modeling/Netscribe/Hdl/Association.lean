import Netscribe.Data.Dictionary
import Netscribe.Hdl.Port
import Netscribe.Hdl.Statement
/-!
# Port maps

What the ports of an instance are connected to.  A port is bound as a whole or bit by bit; how a
binding is associated differs: VHDL names each element of the port, and Verilog concatenates the
bits, the highest first.

* `Actual`, `Binding` — what a port or a bit of it is connected to.
* `Association` — one entry of a port map.
* `Dialect.associations` — the entries that a binding needs.
* `PortMap` — all entries of an instance, in the order of their keys.
* `PortMap.instanceLines` — the instantiation.
-/

namespace Netscribe

/-- **What a port, or one bit of it, is connected to.** -/
inductive Actual where
  | ref (ref : Ref)
  | zeros (width : Nat)
  | unconnected
  | unconnectedBit
  deriving DecidableEq

/-- An actual in a language. -/
def Actual.text (d : Dialect) : Actual → String
  | .ref r => r.text d
  | .zeros width => d.zeros width
  | .unconnected => d.unconnected
  | .unconnectedBit => d.unconnectedBit

/-- **What a port is connected to**, as a whole or bit by bit. -/
inductive Binding where
  | whole (actual : Actual)
  /-- One actual per bit, the lowest first. -/
  | bits (actuals : List Actual)
  deriving DecidableEq

/-- What stands on the right side of an association. -/
inductive Connection where
  | single (actual : Actual)
  /-- Several actuals put together, the highest bit first. -/
  | concatenation (actuals : List Actual)
  deriving DecidableEq

/-- A connection in a language. -/
def Connection.text (d : Dialect) : Connection → String
  | .single a => a.text d
  | .concatenation as => "\x7b" ++ String.intercalate "," (as.map (Actual.text d)) ++ "\x7d"

/-- **An entry of a port map.** -/
structure Association where
  /-- The port, or one element of it. -/
  formal : Ref
  actual : Connection
  deriving DecidableEq

namespace Dialect

/-- The entries that bind a port bit by bit; a single bit binds the port itself. -/
def bitAssociations (d : Dialect) (port : String) (actuals : List Actual) : List Association :=
  match actuals with
  | [a] => [⟨.whole port, .single a⟩]
  | _ =>
    match d with
    | .vhdl => actuals.zipIdx.map fun (a, i) => ⟨.bit port i, .single a⟩
    | .verilog => [⟨.whole port, .concatenation actuals.reverse⟩]

/-- **The entries that a binding needs.** -/
def associations (d : Dialect) (port : String) : Binding → List Association
  | .whole a => [⟨.whole port, .single a⟩]
  | .bits as => d.bitAssociations port as

end Dialect

/-- **A port map**: entries by the text of their formals. -/
abbrev PortMap := Dictionary Association

namespace PortMap

/-- Adds entries; a later entry takes the place of one with the same formal. -/
def addAll (map : PortMap) (d : Dialect) (entries : List Association) : PortMap :=
  entries.foldl (fun map a => map.insert (a.formal.text d) a) map

/-- **The port map of bindings**, given with the ports they bind. -/
def ofBindings (d : Dialect) (bindings : List (String × Binding)) : PortMap :=
  addAll .empty d (bindings.flatMap fun b => d.associations b.1 b.2)

/-- The entries as texts: formal and actual. -/
def texts (d : Dialect) (map : PortMap) : List (String × String) :=
  map.toList.map fun e => (e.1, e.2.actual.text d)

/-- **The instantiation** of a definition under an instance label. -/
def instanceLines (d : Dialect) (definition label : String) (map : PortMap) : List String :=
  match d with
  | .vhdl =>
    let head := indent ++ label ++ " : " ++ definition
    if map.toList.isEmpty then [head ++ ";"]
    else
      let lead := indent ++ indent ++ "PORT MAP ( "
      head :: Dialect.bracketed lead (Text.spaces lead.utf8ByteSize) "," " );"
        (fun e => alignName e.1 ++ " => " ++ e.2) (map.texts d)
  | .verilog =>
    let head := indent ++ definition ++ " " ++ label ++ " ("
    if map.toList.isEmpty then [head ++ ");"]
    else
      Dialect.bracketed head (Text.spaces head.utf8ByteSize) "," ");"
        (fun e => "." ++ e.1 ++ "(" ++ e.2 ++ ")") (map.texts d)

end PortMap

end Netscribe
