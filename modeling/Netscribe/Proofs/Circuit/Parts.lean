import Netscribe.Circuit.Body
import Netscribe.Proofs.Generation.Attempt

/-!
# What the parts of a body come to

Every part of a body is an attempt.  For each of them this file says once when it succeeds and with
which value, so that nothing else has to look inside.

* `Netlist.terminalBinding_eq_ok_iff`, `Netlist.pinAssignments_eq_ok_iff` — one terminal.
* `Netlist.clockAssignment_eq_ok_iff`, `Gate.assignments_eq_ok_iff`, `Multiplexer.bindings_eq_ok_iff`,
  `Netlist.instanceBindings_eq_ok_iff` — what is placed.
* `Gate.assignments_of_few`, `Gate.assignments_of_terminals` — all that comes of a gate.
* `Context.sections_eq_ok_iff`, `Context.definition_eq_ok_iff` — a body and its definition.
-/

namespace Netscribe

open Attempt

/-! ## Pins -/

/-- A pin makes a port if it has a label and bits. -/
lemma Component.pinPort?_eq_some_iff {pin : Component} {port : String × ℕ} :
    pin.pinPort? = some port ↔
      ∃ t, pin.terminal? 0 = some t ∧ (Identifier.ofLabel pin.label).isEmpty = false ∧ t.width ≠ 0
        ∧ (Identifier.ofLabel pin.label, t.width) = port := by
  rw [pinPort?]
  cases pin.terminal? 0 with
  | none => simp
  | some t =>
      show (if (_ || _) = true then none else some _) = some port ↔ _
      simp [and_assoc]

/-- The names of the ports that some pins make. -/
def pinNames (pins : List Component) : List String :=
  (pins.filterMap Component.pinPort?).map Prod.fst

lemma mem_pinNames {pins : List Component} {name : String} :
    name ∈ pinNames pins ↔ ∃ pin ∈ pins, pin.pinPort?.isSome ∧ Identifier.ofLabel pin.label = name := by
  constructor
  · intro h
    obtain ⟨port, hport, rfl⟩ := List.mem_map.1 h
    obtain ⟨pin, hpin, hsome⟩ := List.mem_filterMap.1 hport
    obtain ⟨t, -, -, -, rfl⟩ := Component.pinPort?_eq_some_iff.1 hsome
    exact ⟨pin, hpin, by rw [hsome]; rfl, rfl⟩
  · rintro ⟨pin, hpin, hsome, rfl⟩
    obtain ⟨port, hport⟩ := Option.isSome_iff_exists.1 hsome
    obtain ⟨t, -, -, -, rfl⟩ := Component.pinPort?_eq_some_iff.1 hport
    exact List.mem_map_of_mem (List.mem_filterMap.2 ⟨pin, hpin, hport⟩)

/-! ## Terminals -/

section Terminals

variable {nl : Netlist} {c : Component} {index : ℕ} {port : String}

@[simp] lemma Component.terminalAt_eq_ok_iff {t : Terminal} :
    (c.terminalAt index).outcome = .ok t ↔ c.terminal? index = some t :=
  outcome_orFail_eq_ok_iff

namespace Netlist

lemma terminalBinding_eq_ok_iff {binding : Binding} :
    (nl.terminalBinding port c index).outcome = .ok binding ↔
      ∃ t, c.terminal? index = some t
        ∧ (nl.wiresOf t).binding t.direction.mayFloat t.width = binding := by
  simp [terminalBinding, outcome_bind_eq_ok_iff]

lemma pinAssignments_eq_ok_iff {assignments : List Assignment} :
    (nl.pinAssignments port c index).outcome = .ok assignments ↔
      ∃ t, c.terminal? index = some t
        ∧ (if t.width = 0 then [] else (nl.wiresOf t).assignments port t.direction.mayFloat t.width)
          = assignments := by
  simp only [pinAssignments, outcome_bind_eq_ok_iff, Component.terminalAt_eq_ok_iff]
  refine exists_congr fun t => and_congr_right fun _ => ?_
  split <;> simp

/-- A pin of an instance is bound through the terminal that carries it. -/
lemma pinBinding_eq_ok_iff {direction : Direction} {bound : String × Binding} :
    (nl.pinBinding c direction port).outcome = .ok bound ↔
      ∃ index binding, c.terminalIndex? port direction = some index
        ∧ (nl.terminalBinding port c index).outcome = .ok binding ∧ (port, binding) = bound := by
  simp [pinBinding, outcome_bind_eq_ok_iff]

end Netlist

end Terminals

/-! ## What is placed -/

section Placed

variable {nl : Netlist} {c : Component}

namespace Netlist

/-- A clock source is skipped if nothing is connected, and else needs its signal and its tree. -/
lemma clockAssignment_eq_ok_iff {systemClock : String} {source : ClockSource}
    {assignment : Option Assignment} :
    (nl.clockAssignment systemClock source).outcome = .ok assignment ↔
      match (source.component.terminal? 0).filter Terminal.isConnected with
      | none => none = assignment
      | some t => ∃ net tree, nl.clockSignal? t = some net ∧ nl.clockTree? source = some tree
          ∧ some (.ofRef net (nl.clockDriver tree)) = assignment := by
  rw [clockAssignment]
  cases (source.component.terminal? 0).filter Terminal.isConnected with
  | none => simp [warn]
  | some t => simp [outcome_bind_eq_ok_iff]

lemma clockAssignments_eq_ok_iff {systemClock : String} {assignments : List Assignment} :
    (nl.clockAssignments systemClock).outcome = .ok assignments ↔
      ∃ each, List.Forall₂ (fun source a => (nl.clockAssignment systemClock source).outcome = .ok a)
          nl.clockSources each
        ∧ each.filterMap id = assignments := by
  simp [clockAssignments, outcome_mapM_eq_ok_iff]

lemma pinBindings_eq_ok_iff {direction : Direction} {pins : List Component}
    {bindings : List (String × Binding)} :
    (nl.pinBindings c direction pins).outcome = .ok bindings ↔
      List.Forall₂ (fun port b => (nl.pinBinding c direction port).outcome = .ok b)
        (pinNames pins) bindings :=
  outcome_mapM_eq_ok_iff

lemma instanceBindings_eq_ok_iff {child : Netlist} {bindings : List (String × Binding)} :
    (nl.instanceBindings c child).outcome = .ok bindings ↔
      ∃ inputs outputs inouts, (nl.pinBindings c .input child.inputs).outcome = .ok inputs
        ∧ (nl.pinBindings c .output child.outputs).outcome = .ok outputs
        ∧ (nl.pinBindings c .inout child.inouts).outcome = .ok inouts
        ∧ child.clockTreeBindings id ++ child.globalClockBinding
          ++ bubbleBinding Names.inoutBubbles child.inoutBubbles.toNat c.bubbles.inout
              nl.inoutBubbles.toNat
          ++ bubbleBinding Names.inputBubbles child.inputBubbles.toNat c.bubbles.input
              nl.inputBubbles.toNat
          ++ bubbleBinding Names.outputBubbles child.outputBubbles.toNat c.bubbles.output
              nl.outputBubbles.toNat
          ++ inputs ++ outputs ++ inouts = bindings := by
  simp [instanceBindings, outcome_bind_eq_ok_iff]

end Netlist

namespace Gate

variable {g : Gate} {label : String}

/-- A gate lacks a terminal, or it has all that it needs and an output among them. -/
lemma few_or_terminals (g : Gate) (c : Component) :
    c.terminalCount < g.required
      ∨ ∃ output rest, c.terminals = output :: rest ∧ g.required ≤ c.terminalCount := by
  by_cases h : c.terminalCount < g.required
  · exact .inl h
  · cases hterminals : c.terminals with
    | nil =>
        have hpos : 0 < g.required := by cases g <;> decide
        simp only [Component.terminalCount, hterminals, List.length_nil] at h
        exact absurd hpos h
    | cons output rest => exact .inr ⟨output, rest, rfl, Nat.not_lt.1 h⟩

lemma assignments_of_few (h : c.terminalCount < g.required) :
    g.assignments nl label c
      = .fail (.missingTerminal c.label (g.required - 1) c.terminalCount) := by
  rw [assignments]
  split
  · rw [if_pos h]
  · rfl

/-- What a gate with all its terminals warns of, and what it assigns to each bit of its output. -/
lemma assignments_of_terminals {output : Terminal} {rest : List Terminal}
    (hterminals : c.terminals = output :: rest) (h : g.required ≤ c.terminalCount) :
    g.assignments nl label c =
      ⟨(outputBits nl output).flatMap fun (bit, _) =>
          bitWarnings nl label (output.width == 1) (g.inputs c) bit,
        .ok ((outputBits nl output).map fun (bit, signal) =>
          ⟨signal, .logic g.operator g.negated ((g.inputs c).map (operand nl bit))⟩)⟩ := by
  rw [assignments, hterminals]
  exact if_neg (Nat.not_lt.2 h)

/-- A gate needs its terminals, and nothing else. -/
lemma assignments_eq_ok_iff {assignments : List Assignment} :
    (g.assignments nl label c).outcome = .ok assignments ↔
      ∃ output inputs, c.terminals = output :: inputs ∧ g.required ≤ c.terminalCount
        ∧ ((outputBits nl output).map fun (bit, signal) =>
            ⟨signal, .logic g.operator g.negated ((g.inputs c).map (operand nl bit))⟩)
          = assignments := by
  rcases g.few_or_terminals c with h | ⟨output, rest, hterminals, h⟩
  · simp [assignments_of_few h, fail, Nat.not_le.2 h]
  · simp [assignments_of_terminals hterminals h, hterminals, h]

end Gate

lemma Multiplexer.bindings_eq_ok_iff {bindings : List (String × Binding)} :
    (Multiplexer.bindings nl c).outcome = .ok bindings ↔
      List.Forall₂ (fun (p : String × ℕ) (b : String × Binding) =>
        ∃ binding, (nl.terminalBinding p.1 c p.2).outcome = .ok binding ∧ (p.1, binding) = b)
        terminalPorts.zipIdx bindings := by
  simp [Multiplexer.bindings, outcome_mapM_eq_ok_iff]

end Placed

/-! ## Sections -/

namespace Context

variable {ctx : Context} {nl : Netlist}

@[simp] lemma resolve_eq_ok_iff {c : Component} {p : Primitive} :
    (ctx.resolve c).outcome = .ok p ↔ ctx.registry.resolve? c = some p :=
  outcome_orFail_eq_ok_iff

/-- The target of an instance is the circuit at its position. -/
lemma target_eq_ok_iff {c : Component} {target : Option (UInt32 × Circuit × Bool)} :
    (ctx.target c).outcome = .ok target ↔
      match c.target? with
      | none => none = target
      | some (id, gated) =>
        ∃ circuit, ctx.design.circuit? id = some circuit ∧ some (id, circuit, gated) = target := by
  rw [Context.target]
  rcases c.target? with _ | ⟨id, gated⟩ <;> simp

lemma pinSection_eq_ok_iff {pins : List Component} {assignments : List Assignment} :
    (pinSection nl pins).outcome = .ok assignments ↔
      ∃ each, List.Forall₂ (fun (p : String × Component) as =>
          (nl.pinAssignments p.1 p.2 0).outcome = .ok as)
          (pins.filterMap fun pin => pin.pinPort?.map (·.1, pin)) each
        ∧ each.flatten = assignments := by
  simp [pinSection, outcome_mapM_eq_ok_iff]

lemma placeComponents_cons_eq_ok_iff {inlineId instanceId : ℕ} {c : Component}
    {cs : List Component} {placed : List Statement × List Statement} :
    (ctx.placeComponents nl inlineId instanceId (c :: cs)).outcome = .ok placed ↔
      ∃ p, ctx.registry.resolve? c = some p ∧
        if p.isInlined then
          ∃ here rest, (p.inlined nl p.name inlineId c).outcome = .ok here
            ∧ (ctx.placeComponents nl (inlineId + 1) instanceId cs).outcome = .ok rest
            ∧ (here.map .assign ++ rest.1, rest.2) = placed
        else
          ∃ here rest, (p.instances nl p.name instanceId c).outcome = .ok here
            ∧ (ctx.placeComponents nl inlineId (instanceId + 1) cs).outcome = .ok rest
            ∧ (rest.1, here ++ rest.2) = placed := by
  rw [placeComponents]
  simp only [outcome_bind_eq_ok_iff, resolve_eq_ok_iff]
  refine exists_congr fun p => and_congr_right fun _ => ?_
  split <;> simp [outcome_bind_eq_ok_iff]

lemma circuitInstance_eq_ok_iff {name : String} {id : ℕ} {c : Component} {child : Netlist}
    {statement : Statement} :
    (circuitInstance nl name id c child).outcome = .ok statement ↔
      ∃ bindings, (nl.instanceBindings c child).outcome = .ok bindings
        ∧ .instance name (Names.instanceLabel name id) bindings = statement := by
  simp [circuitInstance]

/-- What one of the placed instances writes: nothing if it is no instance. -/
def Places (ctx : Context) (nl : Netlist) (c : Component × ℕ) (statements : List Statement) :
    Prop :=
  match c.1.target? with
  | none => [] = statements
  | some (id, gated) =>
    ∃ circuit statement, ctx.design.circuit? id = some circuit
      ∧ (circuitInstance nl (Names.definition circuit.name gated) (c.2 + 1) c.1
          circuit.netlist).outcome = .ok statement
      ∧ [statement] = statements

lemma placeInstances_eq_ok_iff {statements : List Statement} :
    (ctx.placeInstances nl).outcome = .ok statements ↔
      ∃ each, List.Forall₂ (ctx.Places nl) nl.instances.zipIdx each
        ∧ each.flatten = statements := by
  simp only [placeInstances, bind_pure_comp, outcome_map_eq_ok_iff, outcome_mapM_eq_ok_iff,
    outcome_bind_eq_ok_iff, target_eq_ok_iff]
  refine exists_congr fun each => and_congr_left fun _ => ?_
  congr! 2 with c
  funext statements
  rw [Places]
  rcases c.1.target? with _ | ⟨id, gated⟩ <;> simp

/-- **What the sections of a body say**, one list for each of them. -/
lemma sections_eq_ok_iff {sections : List Section} :
    (ctx.sections nl).outcome = .ok sections ↔
      ∃ clocks inputs outputs inouts placed instances,
        (nl.clockAssignments ctx.systemClock).outcome = .ok clocks
        ∧ (pinSection nl nl.inputs).outcome = .ok inputs
        ∧ (pinSection nl nl.outputs).outcome = .ok outputs
        ∧ (pinSection nl nl.inouts).outcome = .ok inouts
        ∧ (ctx.placeComponents nl 1 1 nl.components).outcome = .ok placed
        ∧ (ctx.placeInstances nl).outcome = .ok instances
        ∧ assignmentSection "Here all clock generator connections are defined" clocks
          ++ assignmentSection "Here all wiring is defined" nl.wiring
          ++ assignmentSection "Here all input connections are defined" inputs
          ++ assignmentSection "Here all output connections are defined" outputs
          ++ assignmentSection "Here all inout connections are defined" inouts
          ++ Section.titled "Here all in-lined components are defined" placed.1
          ++ Section.titled "Here all normal components are defined" placed.2
          ++ Section.titled "Here all sub-circuits are defined" instances = sections := by
  simp only [Context.sections, outcome_bind_eq_ok_iff, outcome_pure, Except.ok.injEq]
  constructor
  · rintro ⟨clocks, hclocks, inputs, hinputs, outputs, houtputs, inouts, hinouts, placed, hplaced,
      instances, hinstances, h⟩
    exact ⟨clocks, inputs, outputs, inouts, placed, instances, hclocks, hinputs, houtputs, hinouts,
      hplaced, hinstances, h⟩
  · rintro ⟨clocks, inputs, outputs, inouts, placed, instances, hclocks, hinputs, houtputs, hinouts,
      hplaced, hinstances, h⟩
    exact ⟨clocks, hclocks, inputs, hinputs, outputs, houtputs, inouts, hinouts, placed, hplaced,
      instances, hinstances, h⟩

lemma definition_eq_ok_iff {c : Circuit} {name : String} {definition : Definition} :
    (ctx.definition c name).outcome = .ok definition ↔
      ∃ declarations sections, (ctx.declarations c.netlist).outcome = .ok declarations
        ∧ (ctx.sections c.netlist).outcome = .ok sections
        ∧ { name, ports := c.netlist.ports, declarations, signals := c.netlist.signals, sections }
          = definition := by
  simp [Context.definition, outcome_bind_eq_ok_iff]

end Context

end Netscribe
