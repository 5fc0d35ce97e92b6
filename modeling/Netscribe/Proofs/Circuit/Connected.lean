import Netscribe.Circuit.Clocks
import Netscribe.Primitive.Gate
import Netscribe.Proofs.Circuit.Naming
import Netscribe.Proofs.Circuit.Parts
import Netscribe.Proofs.Circuit.PortMap
import Netscribe.Proofs.Design.WellFormed
import Netscribe.Proofs.Netlist.View

/-!
# What becomes of connected bits

A bit that is connected to a point has a signal if the point has a root, and a terminal all of whose
connected bits have one is written with them: nothing is left out, tied to ground or reported but
the bits without connection.  In a design that is accepted there is one thing that takes the signal
from a connected bit: a bus that is a view of itself, directly or through others.  The check of a
design does not look for such views.

* `Netlist.Takes`, `Netlist.Gives` — text in which connected bits stand with their signals.
* `Netlist.Serves` — no connected bit of a terminal is taken for one without connection.
* `Netlist.serves_of_isSome` — it is enough that each of them has a signal.
* `Netlist.placed` — all components of a circuit.
* **`Design.serves_iff`** — which terminals of an accepted design are served.
-/

namespace Netscribe

/-! ## Terminals that are served -/

/-- A warning is of bits without connection: of one of them, or of a terminal that has no others. -/
def Terminal.Leaves (t : Terminal) (port : String) (w : Warning) : Prop :=
  (∃ i, w = .unconnectedBit port i ∧ t.bits[i]? = some none)
    ∨ (∀ b ∈ t.bits, b = none) ∧ (w = .unconnectedInput port ∨ w = .unconnectedBus port)

namespace Netlist

/-- What was read of a port has each bit of it that stands for a connected one with the signal of
that, and with nothing else. -/
def Takes (nl : Netlist) (port : String) (t : Terminal) (pairs : List (Wire × Driver)) : Prop :=
  ∀ i p, t.bits[i]? = some (some p) → ∃ r, nl.signalOf p = some r
    ∧ ∀ driver, (⟨port, i⟩, driver) ∈ pairs ↔ driver = .wire r.wire

/-- What was read of a port has the signal of each connected bit, driven by that bit of the port. -/
def Gives (nl : Netlist) (port : String) (t : Terminal) (pairs : List (Wire × Driver)) : Prop :=
  ∀ i p, t.bits[i]? = some (some p) → ∃ r, nl.signalOf p = some r
    ∧ (r.wire, .wire ⟨port, i⟩) ∈ pairs

/-- **No connected bit of a terminal is taken for one without connection**, whatever the terminal is
of: a pin, a clock source, a gate, or what is bound in a port map. -/
structure Serves (nl : Netlist) (c : Component) (index : ℕ) (t : Terminal) : Prop where
  /-- Each connected bit has a text in either language. -/
  text : ∀ p, some p ∈ t.bits → ∀ d : Dialect, ∃ text, (nl.signalOf p).map (Ref.text d) = some text
  /-- Only bits without connection are reported. -/
  reported : ∀ port w, w ∈ (nl.pinAssignments port c index).warnings
    ∨ w ∈ (nl.terminalBinding port c index).warnings → t.Leaves port w
  /-- Each connected bit of an input is assigned from its signal, and not from ground. -/
  taken : t.direction = .input → 1 ≤ t.width → ∀ port, ∃ assignments,
    (nl.pinAssignments port c index).outcome = .ok assignments ∧ ∀ d, ∃ pairs,
      ReadsEach (ReadsLine [⟨port, t.width⟩] nl.signals d) (assignments.map (Assignment.line d)) pairs
        ∧ nl.Takes port t pairs
  /-- The signal of each connected bit is assigned, where the component may drive. -/
  given : t.direction ≠ .input → 1 ≤ t.width → ∀ port, ∃ assignments,
    (nl.pinAssignments port c index).outcome = .ok assignments ∧ ∀ d, ∃ pairs,
      ReadsEach (ReadsLine nl.signals [⟨port, t.width⟩] d) (assignments.map (Assignment.line d)) pairs
        ∧ nl.Gives port t pairs
  /-- In a port map, each connected bit is bound to its signal. -/
  bound : 1 ≤ t.width → ∀ formal, ∃ binding,
    (nl.terminalBinding formal c index).outcome = .ok binding ∧ ∀ d, ∃ pairs,
      ReadsEach (ReadsAssociation [⟨formal, t.width⟩] nl.signals d)
        ((d.associations formal binding).map (Association.texts d)) pairs
        ∧ nl.Takes formal t pairs
  /-- A gate reads and drives each connected bit through its signal. -/
  gate : ∀ bit p, t.point? bit = some p → ∃ r, nl.signalOf p = some r
    ∧ Gate.operand nl bit t = .ref r ∧ (bit, r) ∈ Gate.outputBits nl t
  /-- A clock source whose lowest bit is connected has a net. -/
  clock : ∀ p, t.point? 0 = some p → (nl.clockSignal? t).isSome

variable {nl : Netlist} {c : Component} {index : ℕ} {t : Terminal} {port : String}

/-! ## Signals are enough -/

lemma mem_of_point? {bit : ℕ} {p : Point} (h : t.point? bit = some p) :
    bit < t.width ∧ some p ∈ t.bits := by
  rw [Terminal.point?, Option.join_eq_some_iff] at h
  exact ⟨(List.getElem?_eq_some_iff.1 h).1, List.mem_of_getElem? h⟩

lemma terminalAt_of_terminal? (ht : c.terminal? index = some t) : c.terminalAt index = .succeed t := by
  rw [Component.terminalAt, ht]
  rfl

lemma warnings_pinAssignments (ht : c.terminal? index = some t) {w : Warning}
    (hw : w ∈ (nl.pinAssignments port c index).warnings) : w ∈ nl.missingWarnings port t := by
  rw [← warnings_wiresOf]
  rw [pinAssignments, terminalAt_of_terminal? ht] at hw
  change w ∈ (Attempt.andThen (.succeed t) _).warnings at hw
  simp only [Attempt.andThen, Attempt.succeed, List.nil_append] at hw
  split at hw
  · cases hw
  · exact hw

lemma warnings_terminalBinding (ht : c.terminal? index = some t) :
    (nl.terminalBinding port c index).warnings = nl.missingWarnings port t := by
  rw [← warnings_wiresOf, terminalBinding, terminalAt_of_terminal? ht]
  rfl

/-- What is missing is not connected, where all that is connected has a signal. -/
lemma leaves_of_mem_missingWarnings (h : ∀ p, some p ∈ t.bits → (nl.signalOf p).isSome) {w : Warning}
    (hw : w ∈ nl.missingWarnings port t) : t.Leaves port w := by
  have hnone : ∀ b ∈ t.bits, nl.signalAt b = none → b = none := by
    intro b hb hsignal
    cases b with
    | none => rfl
    | some p => exact absurd (h p hb) (by simpa [signalAt] using hsignal)
  rw [missingWarnings] at hw
  split at hw
  case h_1 | h_2 => cases hw
  case h_3 =>
    split at hw
    case isTrue hall =>
      refine .inr ⟨fun b hb => hnone b hb (hall b hb), ?_⟩
      split at hw
      · exact .inl (List.mem_singleton.1 hw)
      · exact .inr (List.mem_singleton.1 hw)
    case isFalse =>
      obtain ⟨⟨b, i⟩, hbit, rfl⟩ := List.mem_map.1 hw
      obtain ⟨hbit, hsignal⟩ := List.mem_filter.1 hbit
      have hget : t.bits[i]? = some b := List.mem_zipIdx_iff_getElem?.1 hbit
      have hb := hnone b (List.mem_of_getElem? hget) (Option.isNone_iff_eq_none.1 hsignal)
      exact .inl ⟨i, rfl, by rw [hget, hb]⟩

lemma takes_boundBits (h : ∀ p, some p ∈ t.bits → (nl.signalOf p).isSome) :
    nl.Takes port t (nl.boundBits port t) := by
  intro i p hi
  obtain ⟨r, hr⟩ := Option.isSome_iff_exists.1 (h p (List.mem_of_getElem? hi))
  have hdriver : nl.bitDriver t.direction (some p) = .wire r.wire :=
    bitDriver_some (by simpa [signalAt] using hr)
  refine ⟨r, hr, fun driver => ⟨fun hmem => ?_, ?_⟩⟩
  · -- the position tells which bit the pair is of
    obtain ⟨⟨b, k⟩, hb, hpair⟩ := List.mem_map.1 hmem
    simp only [Prod.mk.injEq, Wire.mk.injEq, true_and] at hpair
    obtain ⟨rfl, rfl⟩ := hpair
    obtain rfl := Option.some.inj ((List.mem_zipIdx_iff_getElem?.1 hb).symm.trans hi)
    exact hdriver
  · rintro rfl
    exact List.mem_map.2 ⟨(some p, i), List.mem_zipIdx_iff_getElem?.2 hi, by rw [hdriver]⟩

lemma gives_drivenBits (h : ∀ p, some p ∈ t.bits → (nl.signalOf p).isSome) :
    nl.Gives port t (nl.drivenBits port t) := by
  intro i p hi
  obtain ⟨r, hr⟩ := Option.isSome_iff_exists.1 (h p (List.mem_of_getElem? hi))
  refine ⟨r, hr, List.mem_filterMap.2 ⟨(some p, i), List.mem_zipIdx_iff_getElem?.2 hi, ?_⟩⟩
  simp [signalAt, hr]

/-- **A terminal is served if each of its connected bits has a signal.** -/
theorem serves_of_isSome (ht : c.terminal? index = some t)
    (h : ∀ p, some p ∈ t.bits → (nl.signalOf p).isSome) : nl.Serves c index t where
  text := by
    intro p hp d
    obtain ⟨r, hr⟩ := Option.isSome_iff_exists.1 (h p hp)
    exact ⟨r.text d, by rw [hr]; rfl⟩
  reported := by
    rintro port w (hw | hw)
    · exact leaves_of_mem_missingWarnings h (warnings_pinAssignments ht hw)
    · rw [warnings_terminalBinding ht] at hw
      exact leaves_of_mem_missingWarnings h hw
  taken := by
    intro hinput hw port
    refine ⟨_, pinAssignments_eq_ok_iff.2 ⟨t, ht, rfl⟩, fun d => ⟨_, ?_, takes_boundBits h⟩⟩
    rw [if_neg (Nat.one_le_iff_ne_zero.1 hw), hinput]
    exact assignments_reads_input hinput hw
  given := by
    intro hinput hw port
    have hfloat : t.direction.mayFloat = true := by simpa [Direction.mayFloat] using hinput
    refine ⟨_, pinAssignments_eq_ok_iff.2 ⟨t, ht, rfl⟩, fun d => ⟨_, ?_, gives_drivenBits h⟩⟩
    rw [if_neg (Nat.one_le_iff_ne_zero.1 hw), hfloat]
    exact assignments_reads_output
  bound := by
    intro hw formal
    exact ⟨_, terminalBinding_eq_ok_iff.2 ⟨t, ht, rfl⟩,
      fun d => ⟨_, binding_reads hw, takes_boundBits h⟩⟩
  gate := by
    intro bit p hp
    obtain ⟨hbit, hmem⟩ := mem_of_point? hp
    obtain ⟨r, hr⟩ := Option.isSome_iff_exists.1 (h p hmem)
    have hsignal : Gate.signalBit nl t bit = some r := by simp [Gate.signalBit, hp, signalAt, hr]
    refine ⟨r, hr, by rw [Gate.operand, hsignal], ?_⟩
    exact List.mem_filterMap.2 ⟨bit, List.mem_range.2 hbit, by rw [hsignal]; rfl⟩
  clock := by
    intro p hp
    simpa [clockSignal?, hp, signalAt] using h p (mem_of_point? hp).2

lemma Serves.isSome (h : nl.Serves c index t) {p : Point} (hp : some p ∈ t.bits) :
    (nl.signalOf p).isSome := by
  obtain ⟨text, htext⟩ := h.text p hp .vhdl
  obtain ⟨r, hr, -⟩ := Option.map_eq_some_iff.1 htext
  simp [hr]

/-- **All components of a circuit**, the clock sources among them. -/
def placed (nl : Netlist) : List Component :=
  nl.components ++ nl.instances ++ (nl.inputs ++ nl.outputs ++ nl.inouts)
    ++ nl.clockSources.map ClockSource.component

end Netlist

/-! ## Designs that are accepted -/

lemma Circuit.Sound.attached {d : Design} {c : Circuit} (h : c.Sound d) {x : Component}
    (hx : x ∈ c.netlist.placed) : c.netlist.Attached x := by
  rcases List.mem_append.1 hx with hx | hx
  · rcases List.mem_append.1 hx with hx | hx
    · rcases List.mem_append.1 hx with hx | hx
      · exact (h.components x hx).2
      · exact (h.instances x hx).2
    · exact (h.pins x hx).2
  · obtain ⟨source, hsource, rfl⟩ := List.mem_map.1 hx
    exact h.clocks source hsource

namespace Design

variable {d : Design}

/-- **A terminal of an accepted design is served exactly if none of its connected bits is on a net
without end**; and of those bits, it is just the ones on such nets that have no signal. -/
theorem serves_iff (hvalid : d.validate = .ok ()) {c : Circuit} (hc : c ∈ d.circuits) {x : Component}
    (hx : x ∈ c.netlist.placed) {index : ℕ} {t : Terminal} (ht : x.terminal? index = some t) :
    (∀ p, some p ∈ t.bits → ((c.netlist.signalOf p).isSome ↔ ¬ c.netlist.Circular p.net))
      ∧ (c.netlist.Serves x index t ↔ ∀ p, some p ∈ t.bits → ¬ c.netlist.Circular p.net) := by
  have hsound := (validate_eq_ok_iff.1 hvalid).circuits c hc
  have hsignal : ∀ p, some p ∈ t.bits →
      ((c.netlist.signalOf p).isSome ↔ ¬ c.netlist.Circular p.net) := by
    intro p hp
    have hbit := hsound.attached hx t (List.mem_of_getElem? ht) p hp
    rw [Netlist.isSome_signalOf, Netlist.isSome_rootOf_iff hsound.nets hbit]
  refine ⟨hsignal, fun h p hp => (hsignal p hp).1 (h.isSome hp), fun h => ?_⟩
  exact Netlist.serves_of_isSome ht fun p hp => (hsignal p hp).2 (h p hp)

/-- Two pins: one on a view of a view of a bus, and one on a bus that is a view of itself. -/
def views : Design where
  circuits := #[
    { name := "main", netlist := {
        nets := #[{ width := 4 }, { width := 3, parent := some ⟨0, 1⟩ },
          { width := 2, parent := some ⟨1, 1⟩ }, { width := 2, parent := some ⟨3, 0⟩ }]
        outputs := [
          { label := "q", terminals :=
            [{ direction := .input, bits := [some ⟨2, 0⟩, some ⟨2, 1⟩] }] },
          { label := "r", terminals :=
            [{ direction := .input, bits := [some ⟨3, 0⟩, some ⟨3, 1⟩] }] }] } }]

/-- The first pin is served.  The second one is not, and its connected bits are tied to ground and
reported as if they had no connection. -/
theorem serves_iff_views :
    let nl := views.circuits[0].netlist
    views.validate = .ok ()
    ∧ (∀ x ∈ nl.outputs, x ∈ nl.placed)
    ∧ nl.Serves nl.outputs[0] 0 nl.outputs[0].terminals[0]
    ∧ nl.Circular 3
    ∧ ¬ nl.Serves nl.outputs[1] 0 nl.outputs[1].terminals[0]
    ∧ nl.signalOf ⟨3, 1⟩ = none
    ∧ nl.pinAssignments "r" nl.outputs[1] 0
      = ⟨[.unconnectedBus "r"], .ok [.ofZeros (.whole "r") 2]⟩ := by
  intro nl
  have hvalid : views.validate = .ok () := by decide
  have hc : views.circuits[0] ∈ views.circuits := Array.getElem_mem _
  have hplaced : ∀ x ∈ nl.outputs, x ∈ nl.placed := by decide
  obtain ⟨hsignal, hserves⟩ := serves_iff hvalid hc (hplaced nl.outputs[0] (by decide))
    (show nl.outputs[0].terminal? 0 = some nl.outputs[0].terminals[0] from rfl)
  obtain ⟨-, hserves'⟩ := serves_iff hvalid hc (hplaced nl.outputs[1] (by decide))
    (show nl.outputs[1].terminal? 0 = some nl.outputs[1].terminals[0] from rfl)
  have hcircular : nl.Circular 3 := .of_transGen (.single ⟨_, _, rfl, rfl, rfl⟩)
  refine ⟨hvalid, hplaced, hserves.2 fun p hp => (hsignal p hp).1 ?_, hcircular, fun h => ?_, by decide,
    rfl⟩
  · have hall : ∀ b ∈ nl.outputs[0].terminals[0].bits, (nl.signalAt b).isSome := by decide
    exact hall _ hp
  · exact hserves'.1 h ⟨3, 0⟩ (by decide) hcircular

end Design

end Netscribe
