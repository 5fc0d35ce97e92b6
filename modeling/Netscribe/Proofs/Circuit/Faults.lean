import Netscribe.Proofs.Circuit.Generable

/-!
# What a definition fails with

The definition of a circuit can fail in five ways, and each fault names the thing in the circuit that
something is missing of: a component, a clock source or an instance.

* `Context.Lacks` — a fault that names what is missing.
* `Netlist.instanceBindings_failsOnly`, `Netlist.clockAssignments_failsOnly`,
  `Context.placeComponents_failsOnly`, `Context.placeInstances_failsOnly` — what each part fails with.
* **`Context.definition_failsOnly`** — a definition fails only with what its circuit lacks.
-/

namespace Netscribe

open Attempt

/-- **A fault names what is missing of a circuit.** -/
inductive Context.Lacks (ctx : Context) (nl : Netlist) : Fault → Prop
  /-- A component of no known primitive. -/
  | generator {c} : c ∈ nl.components → ctx.registry.resolve? c = none →
      Lacks ctx nl (.missingGenerator c.label (kindText c.kind))
  /-- A component without some terminal. -/
  | terminal {c index} : c ∈ nl.components → c.terminalCount ≤ index →
      Lacks ctx nl (.missingTerminal c.label index c.terminalCount)
  /-- A connected clock source without its net or its tree. -/
  | clock {source} : source ∈ nl.clockSources → ¬ nl.Clocked source →
      Lacks ctx nl (.unresolvedClock source.component.label)
  /-- An instance without a terminal for a port. -/
  | pin {c port direction} : c ∈ nl.instances → c.terminalIndex? port direction = none →
      Lacks ctx nl (.unresolvedPin c.label port)
  /-- An instance of a circuit that does not exist. -/
  | circuit {c id gated} : c ∈ nl.instances → c.target? = some (id, gated) →
      ctx.design.circuit? id = none → Lacks ctx nl (.missingCircuit c.label id)

/-! ## Components -/

section Components

variable {nl : Netlist} {c : Component} {ctx : Context}

/-- The fault of a component that has too few terminals. -/
def Component.Short (c : Component) (fault : Fault) : Prop :=
  ∃ index, c.terminalCount ≤ index ∧ fault = .missingTerminal c.label index c.terminalCount

lemma Netlist.terminalBinding_failsOnly {port : String} {index : ℕ} :
    (nl.terminalBinding port c index).FailsOnly c.Short := by
  refine FailsOnly.bind (failsOnly_orFail fun hnone => ?_) fun t _ => .of_succeeds ⟨_, rfl⟩
  exact ⟨index, List.getElem?_eq_none_iff.1 hnone, rfl⟩

lemma Gate.assignments_failsOnly {g : Gate} {label : String} :
    (g.assignments nl label c).FailsOnly c.Short := by
  rcases g.few_or_terminals c with h | ⟨output, rest, hterminals, h⟩
  · rw [Gate.assignments_of_few h]
    exact failsOnly_fail ⟨_, Nat.le_sub_one_of_lt h, rfl⟩
  · rw [Gate.assignments_of_terminals hterminals h]
    exact .of_succeeds ⟨_, rfl⟩

lemma Multiplexer.bindings_failsOnly : (Multiplexer.bindings nl c).FailsOnly c.Short := by
  refine failsOnly_mapM fun p _ => ?_
  exact Netlist.terminalBinding_failsOnly.bind fun _ _ => failsOnly_pure _

namespace Primitive

variable {p : Primitive} {name : String} {id : ℕ}

lemma inlined_failsOnly : (p.inlined nl name id c).FailsOnly c.Short := by
  cases p with
  | gate g => exact Gate.assignments_failsOnly
  | multiplexer width => exact failsOnly_pure _

lemma instances_failsOnly : (p.instances nl name id c).FailsOnly c.Short := by
  cases p with
  | gate g => exact failsOnly_pure _
  | multiplexer width => exact Multiplexer.bindings_failsOnly.bind fun _ _ => failsOnly_pure _

end Primitive

namespace Context

lemma Lacks.of_short (hc : c ∈ nl.components) {fault : Fault} (h : c.Short fault) :
    ctx.Lacks nl fault := by
  obtain ⟨index, hindex, rfl⟩ := h
  exact .terminal hc hindex

lemma resolve_failsOnly (hc : c ∈ nl.components) : (ctx.resolve c).FailsOnly (ctx.Lacks nl) :=
  failsOnly_orFail fun hnone => .generator hc hnone

lemma placeComponents_failsOnly {cs : List Component} (hcs : cs ⊆ nl.components)
    {inlineId instanceId : ℕ} :
    (ctx.placeComponents nl inlineId instanceId cs).FailsOnly (ctx.Lacks nl) := by
  induction cs generalizing inlineId instanceId with
  | nil => exact failsOnly_pure _
  | cons c cs ih =>
      have hc := hcs List.mem_cons_self
      have hrest : ∀ i j, (ctx.placeComponents nl i j cs).FailsOnly (ctx.Lacks nl) :=
        fun _ _ => ih (List.subset_of_cons_subset hcs)
      rw [placeComponents]
      refine (resolve_failsOnly hc).bind fun p _ => ?_
      split
      · exact (Primitive.inlined_failsOnly.mono fun _ => .of_short hc).bind fun _ _ =>
          (hrest _ _).bind fun _ _ => failsOnly_pure _
      · exact (Primitive.instances_failsOnly.mono fun _ => .of_short hc).bind fun _ _ =>
          (hrest _ _).bind fun _ _ => failsOnly_pure _

end Context

end Components

/-! ## Clocks -/

namespace Netlist

variable {nl : Netlist} {ctx : Context}

lemma clockAssignment_failsOnly {systemClock : String} {source : ClockSource} :
    (nl.clockAssignment systemClock source).FailsOnly
      (fun fault => ¬ nl.Clocked source ∧ fault = .unresolvedClock source.component.label) := by
  intro fault h
  refine ⟨fun hclocked => ?_, ?_⟩
  · obtain ⟨assignment, hok⟩ := clockAssignment_succeeds_iff.2 hclocked
    cases hok.symm.trans h
  · -- whichever of the two is missing, the fault is the same
    have heach : (nl.clockAssignment systemClock source).FailsOnly
        (· = .unresolvedClock source.component.label) := by
      rw [clockAssignment]
      split
      · exact .of_succeeds ⟨_, rfl⟩
      · refine FailsOnly.bind (failsOnly_orFail fun _ => rfl) fun _ _ => ?_
        exact FailsOnly.bind (failsOnly_orFail fun _ => rfl) fun _ _ => failsOnly_pure _
    exact heach fault h

lemma clockAssignments_failsOnly {systemClock : String} :
    (nl.clockAssignments systemClock).FailsOnly (ctx.Lacks nl) := by
  refine (failsOnly_mapM fun source hsource => ?_).bind fun _ _ => failsOnly_pure _
  refine clockAssignment_failsOnly.mono ?_
  rintro _ ⟨hclocked, rfl⟩
  exact .clock hsource hclocked

/-! ## Instances -/

variable {c : Component}

/-- A pin whose terminal is found is bound to it. -/
lemma pinBinding_failsOnly {direction : Direction} {port : String} :
    (nl.pinBinding c direction port).FailsOnly
      (fun fault => c.terminalIndex? port direction = none ∧ fault = .unresolvedPin c.label port) := by
  refine (failsOnly_orFail fun hnone => ⟨hnone, rfl⟩).bind fun index hindex => ?_
  refine FailsOnly.bind (.of_succeeds ?_) fun _ _ => failsOnly_pure _
  exact terminalBinding_succeeds_iff.2
    (Component.terminal?_of_terminalIndex? (outcome_orFail_eq_ok_iff.1 hindex))

lemma instanceBindings_failsOnly (hc : c ∈ nl.instances) {child : Netlist} :
    (nl.instanceBindings c child).FailsOnly (ctx.Lacks nl) := by
  have hpins : ∀ direction pins, (nl.pinBindings c direction pins).FailsOnly (ctx.Lacks nl) := by
    intro direction pins
    refine failsOnly_mapM fun port _ => pinBinding_failsOnly.mono ?_
    rintro _ ⟨hnone, rfl⟩
    exact .pin hc hnone
  exact (hpins _ _).bind fun _ _ => (hpins _ _).bind fun _ _ => (hpins _ _).bind fun _ _ =>
    failsOnly_pure _

end Netlist

namespace Context

variable {ctx : Context} {nl : Netlist} {c : Component}

lemma target_failsOnly (hc : c ∈ nl.instances) : (ctx.target c).FailsOnly (ctx.Lacks nl) := by
  rw [Context.target]
  rcases htarget : c.target? with _ | ⟨id, gated⟩
  · exact failsOnly_pure _
  · exact (failsOnly_orFail fun hnone => .circuit hc htarget hnone).bind fun _ _ => failsOnly_pure _

lemma placeInstances_failsOnly : (ctx.placeInstances nl).FailsOnly (ctx.Lacks nl) := by
  refine (failsOnly_mapM ?_).bind fun _ _ => failsOnly_pure _
  rintro ⟨c, index⟩ hx
  have hc : c ∈ nl.instances := List.fst_mem_of_mem_zipIdx hx
  refine (target_failsOnly hc).bind ?_
  rintro (_ | ⟨id, circuit, gated⟩) _
  · exact failsOnly_pure _
  · exact ((Netlist.instanceBindings_failsOnly hc).bind fun _ _ => failsOnly_pure _).bind
      fun _ _ => failsOnly_pure _

/-! ## Definitions -/

lemma declarations_failsOnly : (ctx.declarations nl).FailsOnly (ctx.Lacks nl) := by
  refine (failsOnly_mapM fun c hc => ?_).bind fun _ _ => (failsOnly_mapM fun c hc => ?_).bind
    fun _ _ => failsOnly_pure _
  · exact (resolve_failsOnly hc).bind fun _ _ => failsOnly_pure _
  · refine (target_failsOnly hc).bind ?_
    rintro (_ | ⟨id, circuit, gated⟩) _ <;> exact failsOnly_pure _

lemma sections_failsOnly : (ctx.sections nl).FailsOnly (ctx.Lacks nl) := by
  have hpins : ∀ pins, (pinSection nl pins).FailsOnly (ctx.Lacks nl) :=
    fun pins => .of_succeeds (pinSection_succeeds nl pins)
  refine Netlist.clockAssignments_failsOnly.bind fun _ _ => ?_
  refine (hpins _).bind fun _ _ => (hpins _).bind fun _ _ => (hpins _).bind fun _ _ => ?_
  refine (placeComponents_failsOnly (List.Subset.refl _)).bind fun _ _ => ?_
  exact placeInstances_failsOnly.bind fun _ _ => failsOnly_pure _

/-- **A definition fails only with what its circuit lacks.** -/
theorem definition_failsOnly {c : Circuit} {name : String} :
    (ctx.definition c name).FailsOnly (ctx.Lacks c.netlist) :=
  declarations_failsOnly.bind fun _ _ => sections_failsOnly.bind fun _ _ => failsOnly_pure _

end Context

end Netscribe
