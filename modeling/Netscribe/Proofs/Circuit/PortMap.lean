import Mathlib.Data.List.Forall2
import Netscribe.Proofs.Circuit.Terminal

/-!
# Terminals in a port map, bit by bit

VHDL associates the elements of a formal one by one, and Verilog concatenates what they are bound
to, the highest first.  Both say the same of every bit, and the same as joining the terminal by
assignments would.

* `Netlist.bitActual_reads_vhdl`, `Netlist.bitActual_reads_verilog` — one bit.
* `Netlist.bitAssociations_reads` — the bits of a terminal that no single reference carries.
* **`Netlist.terminalBinding_reads`** — a terminal joined in a port map.
-/

namespace Netscribe.Netlist

variable {nl : Netlist} {t : Terminal} {formal : String}

/-! ## One bit -/

lemma bitActual_reads_vhdl (direction : Direction) (b : Option Point) :
    ReadsActual nl.signals .vhdl ((bitActual direction.mayFloat (nl.signalAt b)).text .vhdl)
      [nl.bitDriver direction b] := by
  cases hs : nl.signalAt b with
  | some signal =>
      rw [bitDriver_some hs]
      exact .source (.signal (signalAt_reads hs .vhdl))
  | none =>
      rw [bitDriver_none hs]
      cases direction with
      | input => exact .source .zeroVhdl
      | output | inout => exact .openVhdl (n := 1)

lemma bitActual_reads_verilog (direction : Direction) (b : Option Point) :
    ReadsElement nl.signals ((bitActual direction.mayFloat (nl.signalAt b)).text .verilog)
      (nl.bitDriver direction b) := by
  cases hs : nl.signalAt b with
  | some signal =>
      rw [bitDriver_some hs]
      exact .source (.signal (signalAt_reads hs .verilog))
  | none =>
      rw [bitDriver_none hs]
      cases direction with
      | input => exact .source (readsSource_zeros Nat.one_pos .verilog)
      | output | inout => exact .floating

/-! ## Bits without a common reference -/

/-- The elements of a formal from some bit on, each associated on its own. -/
lemma elements_reads (nl : Netlist) (formal : String) {width : ℕ} (hwidth : 1 < width)
    (direction : Direction) :
    ∀ (bits : List (Option Point)) (k : ℕ), k + bits.length ≤ width →
      ReadsEach (ReadsAssociation [⟨formal, width⟩] nl.signals .vhdl)
        (((bits.zipIdx k).map fun b =>
          (⟨.bit formal b.2, .single (bitActual direction.mayFloat (nl.signalAt b.1))⟩ :
            Association)).map (Association.texts .vhdl))
        ((bits.zipIdx k).map fun b => (⟨formal, b.2⟩, nl.bitDriver direction b.1))
  | [], _, _ => .nil
  | b :: bits, k, hk => by
      have ih := elements_reads nl formal hwidth direction bits (k + 1) (by simp at hk; omega)
      have hformal : Reads [⟨formal, width⟩] .vhdl ((Ref.bit formal k).text .vhdl) [⟨formal, k⟩] :=
        reads_bit (by simp) hwidth (by simp at hk; omega) .vhdl
      rw [List.zipIdx_cons, List.map_cons, List.map_cons, List.map_cons]
      exact .cons (.bind hformal (bitActual_reads_vhdl direction b) rfl) ih

/-- The concatenation of what all bits are bound to: its last element is for the lowest bit. -/
lemma concatenation_reads (nl : Netlist) (direction : Direction) (bits : List (Option Point)) :
    ReadsActual nl.signals .verilog
      ((Connection.concatenation
        (bits.map fun b => bitActual direction.mayFloat (nl.signalAt b)).reverse).text .verilog)
      (bits.map (nl.bitDriver direction)) := by
  have h : List.Forall₂ (ReadsElement nl.signals)
      ((bits.reverse.map fun b => bitActual direction.mayFloat (nl.signalAt b)).map
        (Actual.text .verilog))
      (bits.reverse.map (nl.bitDriver direction)) := by
    rw [List.map_map, List.forall₂_map_left_iff, List.forall₂_map_right_iff, List.forall₂_same]
    exact fun b _ => bitActual_reads_verilog direction b
  have hread := ReadsActual.concatenation h
  rw [← List.map_reverse, List.reverse_reverse] at hread
  rw [← List.map_reverse]
  exact hread

/-- **Bits that no single reference carries**, in either language. -/
theorem bitAssociations_reads (hw : 1 < t.width) :
    ∀ d : Dialect, ReadsEach (ReadsAssociation [⟨formal, t.width⟩] nl.signals d)
      ((d.bitAssociations formal
        ((t.bits.map nl.signalAt).map (bitActual t.direction.mayFloat))).map (Association.texts d))
      (nl.boundBits formal t) := by
  intro d
  rw [Dialect.bitAssociations.eq_def]
  split
  · next a ha =>
      -- a single bit would be bound as a whole
      have := congrArg List.length ha
      simp only [List.length_map, List.length_singleton, Terminal.width] at *
      omega
  · cases d with
    | vhdl =>
        have h := elements_reads nl formal hw t.direction t.bits 0 (by simp [Terminal.width])
        simpa [boundBits, List.zipIdx_map, Function.comp_def] using h
    | verilog =>
        have h := concatenation_reads nl t.direction t.bits
        rw [boundBits_eq_zip]
        refine .single (.bind (port_reads formal t.width .verilog) ?_ (by simp [Terminal.width]))
        simpa [Function.comp_def] using h

/-! ## A whole terminal -/

variable {d : Dialect}

lemma whole_reads {actual : Actual} {drivers : List Driver}
    (h : ReadsActual nl.signals d (actual.text d) drivers) (hlen : drivers.length = t.width) :
    ReadsEach (ReadsAssociation [⟨formal, t.width⟩] nl.signals d)
      ((d.associations formal (.whole actual)).map (Association.texts d))
      ((wires formal 0 t.width).zip drivers) :=
  .single (.bind (port_reads formal t.width d) h (by simp [hlen]))

/-- A formal without any signal: zero for an input, and open otherwise. -/
lemma absent_reads (direction : Direction) {n : ℕ} (hn : 0 < n) :
    ∀ d : Dialect, ReadsActual nl.signals d
      ((if direction.mayFloat then Actual.unconnected else .zeros n).text d)
      (List.replicate n direction.absent) := by
  intro d
  cases direction with
  | input => exact .source (readsSource_zeros hn d)
  | output | inout =>
      cases d with
      | vhdl => exact .openVhdl
      | verilog => exact .openVerilog

/-- **What a terminal is bound to**, whatever the way it meets the signals. -/
theorem binding_reads (hw : 1 ≤ t.width) :
    ReadsEach (ReadsAssociation [⟨formal, t.width⟩] nl.signals d)
      ((d.associations formal ((nl.wiresOf t).binding t.direction.mayFloat t.width)).map
        (Association.texts d))
      (nl.boundBits formal t) := by
  refine wiresOf_cases (fun b hb => ?_) (fun _ h => ?_) (fun _ _ r hr => ?_) (fun hw' _ => ?_)
  · have hone : t.width = 1 := by simp [Terminal.width, hb]
    rw [boundBits_eq_zip, hb, List.map_singleton]
    cases hs : nl.signalAt b with
    | none =>
        rw [bitDriver_none hs]
        have hread : ReadsActual nl.signals d _ [t.direction.absent] :=
          absent_reads t.direction Nat.one_pos d
        exact whole_reads hread hone.symm
    | some signal =>
        rw [bitDriver_some hs]
        exact whole_reads (.source (.signal (signalAt_reads hs d))) hone.symm
  · rw [boundBits_eq_zip, map_bitDriver_of_none h]
    exact whole_reads (absent_reads t.direction hw d) (by simp)
  · rw [boundBits_eq_zip, map_bitDriver_of_busRange hr]
    exact whole_reads (.source (.signal (busRange_reads hr d))) (by simp)
  · exact bitAssociations_reads (by omega) d

/-- **A terminal joined in a port map is joined bit by bit**, and alike in both languages: each bit
of the formal is bound to its signal where it has one, else to zero if the component reads it and to
nothing if it may drive.  Joining never fails, and reports what joining by assignments does. -/
theorem terminalBinding_reads (nl : Netlist) {c : Component} {index : ℕ}
    (ht : c.terminal? index = some t) (hw : 1 ≤ t.width) (formal : String) :
    ∃ binding,
      nl.terminalBinding formal c index
        = ⟨(nl.pinAssignments formal c index).warnings, .ok binding⟩
      ∧ ∀ d, ReadsEach (ReadsAssociation [⟨formal, t.width⟩] nl.signals d)
        ((d.associations formal binding).map (Association.texts d)) (nl.boundBits formal t) := by
  refine ⟨(nl.wiresOf t).binding t.direction.mayFloat t.width, ?_, fun d => binding_reads hw⟩
  have hterminal : c.terminalAt index = .succeed t := by
    rw [Component.terminalAt, ht]
    rfl
  rw [terminalBinding, pinAssignments, hterminal]
  show Attempt.andThen (.succeed t) _ = ⟨(Attempt.andThen (.succeed t) _).warnings, _⟩
  simp only [Attempt.andThen, Attempt.succeed, List.nil_append,
    if_neg (Nat.one_le_iff_ne_zero.1 hw)]

/-- The bits of an output: one on a bus, one without a signal, one on a single wire. -/
theorem terminalBinding_reads_scattered :
    let nl : Netlist := { nets := #[{ width := 8 }, { width := 1 }] }
    let t : Terminal := { direction := .output, bits := [some ⟨0, 5⟩, none, some ⟨1, 0⟩] }
    nl.boundBits "Q" t =
      [(⟨"Q", 0⟩, .wire ⟨"s_logisimBus0", 5⟩), (⟨"Q", 1⟩, .nothing),
        (⟨"Q", 2⟩, .wire ⟨"s_logisimNet1", 0⟩)]
    ∧ ∃ binding,
      nl.terminalBinding "Q" { terminals := [t] } 0
        = ⟨(nl.pinAssignments "Q" { terminals := [t] } 0).warnings, .ok binding⟩
      ∧ ∀ d, ReadsEach (ReadsAssociation [⟨"Q", 3⟩] nl.signals d)
        ((d.associations "Q" binding).map (Association.texts d)) (nl.boundBits "Q" t) := by
  intro nl t
  have ht : Component.terminal? { terminals := [t] } 0 = some t := rfl
  exact ⟨by decide, terminalBinding_reads nl ht (by decide) "Q"⟩

end Netscribe.Netlist
