import Mathlib.Tactic.Common
import Netscribe.Hdl.Module

/-!
# Reading text bit by bit

What a text of either language says of single bits.  The forms are written out here once more, as
the languages have them, and not through the functions that write them: that the writer keeps to
them is what the lemmas below say.

A text is read in a scope of signals, and only within it: an index lies inside a declared bus, and
a single wire has none.

* `Wire`, `Driver` — one bit of a signal, and what a bit is driven by.
* `Reads` — the bits that a reference names, lowest first.
* `ReadsSource`, `ReadsLine` — an assignment.
* `ReadsActual`, `ReadsAssociation` — an entry of a port map.
* `ReadsEach` — any number of them, in order.
-/

namespace Netscribe

/-- **One bit of a named signal.** -/
structure Wire where
  name : String
  index : ℕ
  deriving DecidableEq

/-- **What a bit is driven by or bound to.** -/
inductive Driver where
  /-- A bit of a signal. -/
  | wire (w : Wire)
  | zero
  | nothing
  deriving DecidableEq

/-- The bit that a reference to a single bit stands for; the lowest one of any other. -/
def Ref.wire : Ref → Wire
  | .whole name => ⟨name, 0⟩
  | .bit name index => ⟨name, index⟩
  | .range name _ lo => ⟨name, lo⟩

/-- Some bits of a signal, one above the other. -/
def wires (name : String) (lo count : ℕ) : List Wire :=
  (List.range' lo count).map (Wire.mk name)

@[simp] lemma length_wires (name : String) (lo count : ℕ) :
    (wires name lo count).length = count := by
  simp [wires]

@[simp] lemma getElem_wires (name : String) (lo count : ℕ) {i : ℕ}
    (h : i < (wires name lo count).length) : (wires name lo count)[i] = ⟨name, lo + i⟩ := by
  simp [wires]

/-! ## References -/

/-- **The bits that a reference names**, lowest first. -/
inductive Reads (scope : List Signal) : Dialect → String → List Wire → Prop
  /-- A name alone: every bit of the signal. -/
  | whole {d name width} : ⟨name, width⟩ ∈ scope → Reads scope d name (wires name 0 width)
  /-- `name(i)`: one bit of a bus. -/
  | bitVhdl {name width i} : ⟨name, width⟩ ∈ scope → 1 < width → i < width →
      Reads scope .vhdl (name ++ "(" ++ toString i ++ ")") [⟨name, i⟩]
  /-- `name[i]`: one bit of a bus. -/
  | bitVerilog {name width i} : ⟨name, width⟩ ∈ scope → 1 < width → i < width →
      Reads scope .verilog (name ++ "[" ++ toString i ++ "]") [⟨name, i⟩]
  /-- `name(hi DOWNTO lo)`: the bits from `lo` to `hi`. -/
  | rangeVhdl {name width lo hi} : ⟨name, width⟩ ∈ scope → 1 < width → lo ≤ hi → hi < width →
      Reads scope .vhdl (name ++ "(" ++ toString hi ++ " DOWNTO " ++ toString lo ++ ")")
        (wires name lo (hi + 1 - lo))
  /-- `name[hi:lo]`: the bits from `lo` to `hi`. -/
  | rangeVerilog {name width lo hi} : ⟨name, width⟩ ∈ scope → 1 < width → lo ≤ hi → hi < width →
      Reads scope .verilog (name ++ "[" ++ toString hi ++ ":" ++ toString lo ++ "]")
        (wires name lo (hi + 1 - lo))

variable {scope : List Signal} {name : String} {width : ℕ}

lemma reads_bit (h : ⟨name, width⟩ ∈ scope) {i : ℕ} (hbus : 1 < width) (hi : i < width) :
    ∀ d, Reads scope d ((Ref.bit name i).text d) [⟨name, i⟩]
  | .vhdl => .bitVhdl h hbus hi
  | .verilog => .bitVerilog h hbus hi

lemma reads_range (h : ⟨name, width⟩ ∈ scope) {lo hi : ℕ} (hbus : 1 < width) (hlo : lo ≤ hi)
    (hhi : hi < width) :
    ∀ d, Reads scope d ((Ref.range name hi lo).text d) (wires name lo (hi + 1 - lo))
  | .vhdl => .rangeVhdl h hbus hlo hhi
  | .verilog => .rangeVerilog h hbus hlo hhi

/-! ## Assignments -/

/-- **What drives the bits of an assignment's target**, lowest first. -/
inductive ReadsSource (scope : List Signal) : Dialect → String → List Driver → Prop
  | signal {d text bits} : Reads scope d text bits → ReadsSource scope d text (bits.map .wire)
  | zeroVhdl : ReadsSource scope .vhdl "'0'" [.zero]
  /-- `"00...0"`: a zero for each digit. -/
  | zerosVhdl {n} : 1 < n →
      ReadsSource scope .vhdl (String.ofList ('"' :: (List.replicate n '0' ++ ['"'])))
        (List.replicate n .zero)
  /-- `n'd0`: as many zeros as the literal is wide. -/
  | zerosVerilog {n} : 0 < n →
      ReadsSource scope .verilog (toString n ++ "'d0") (List.replicate n .zero)

lemma readsSource_zeros {n : ℕ} (hn : 0 < n) :
    ∀ d : Dialect, ReadsSource scope d (d.zeros n) (List.replicate n .zero)
  | .vhdl => by
      by_cases h : n ≤ 1
      · obtain rfl : n = 1 := by omega
        exact .zeroVhdl
      · simp only [Dialect.zeros, h, if_false]
        exact .zerosVhdl (by omega)
  | .verilog => by
      simp only [Dialect.zeros, Nat.max_eq_left hn]
      exact .zerosVerilog hn

/-- **A line read bit by bit**: each bit of the target with what drives it.  Both sides have the
same width. -/
inductive ReadsLine (targets sources : List Signal) (d : Dialect) :
    String → List (Wire × Driver) → Prop
  | assign {target source bits drivers} : Reads targets d target bits →
      ReadsSource sources d source drivers → bits.length = drivers.length →
      ReadsLine targets sources d
        (indent ++ d.assignLead ++ alignName target ++ d.assignOperator ++ source ++ ";")
        (bits.zip drivers)

/-! ## Port maps -/

/-- What one element of a Verilog concatenation gives to its bit. -/
inductive ReadsElement (scope : List Signal) : String → Driver → Prop
  /-- A source of one bit. -/
  | source {text driver} : ReadsSource scope .verilog text [driver] → ReadsElement scope text driver
  | floating : ReadsElement scope "1'bz" .nothing

/-- **What the actual of an association gives to the bits of its formal**, lowest first. -/
inductive ReadsActual (scope : List Signal) : Dialect → String → List Driver → Prop
  /-- Bits of a signal, or zeros. -/
  | source {d text drivers} : ReadsSource scope d text drivers → ReadsActual scope d text drivers
  /-- `OPEN`: nothing, for any number of bits. -/
  | openVhdl {n} : ReadsActual scope .vhdl "OPEN" (List.replicate n .nothing)
  /-- Empty: nothing, for any number of bits. -/
  | openVerilog {n} : ReadsActual scope .verilog "" (List.replicate n .nothing)
  /-- Elements in braces: the last one is for the lowest bit. -/
  | concatenation {texts drivers} : List.Forall₂ (ReadsElement scope) texts drivers →
      ReadsActual scope .verilog ("\x7b" ++ String.intercalate "," texts ++ "\x7d") drivers.reverse

/-- **An association read bit by bit**: each bit of the formal with what it is bound to. -/
inductive ReadsAssociation (formals signals : List Signal) (d : Dialect) :
    String × String → List (Wire × Driver) → Prop
  /-- A formal with its actual. -/
  | bind {formal actual bits drivers} : Reads formals d formal bits →
      ReadsActual signals d actual drivers → bits.length = drivers.length →
      ReadsAssociation formals signals d (formal, actual) (bits.zip drivers)

/-! ## Sequences -/

/-- **Texts read one after the other**, given how one is read. -/
inductive ReadsEach {α : Type} (reads : α → List (Wire × Driver) → Prop) :
    List α → List (Wire × Driver) → Prop
  | nil : ReadsEach reads [] []
  | cons {text texts pairs rest} : reads text pairs → ReadsEach reads texts rest →
      ReadsEach reads (text :: texts) (pairs ++ rest)

lemma ReadsEach.single {α : Type} {reads : α → List (Wire × Driver) → Prop} {text : α}
    {pairs : List (Wire × Driver)} (h : reads text pairs) : ReadsEach reads [text] pairs := by
  simpa using ReadsEach.cons h .nil

/-- The two texts of an association. -/
def Association.texts (d : Dialect) (a : Association) : String × String :=
  (a.formal.text d, a.actual.text d)

end Netscribe
