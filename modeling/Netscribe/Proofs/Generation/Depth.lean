import Netscribe.Proofs.Circuit.Faults
import Netscribe.Proofs.Design.WellFormed
import Netscribe.Proofs.Generation.Reports

/-!
# How deep a run goes

The circuits that are being processed stand on a stack, each an instance of the one below it.  In a
design that is accepted no circuit is below itself, so the stack never has a circuit twice, and the
machine comes to an end.  None of this depends on which circuit is the top, as long as it exists.

* `Frame.Of`, `Nested` — a stack of a design, with `Nested.nodup`.
* `Moved` — what one step of the machine does to the stack and to the handled names, with
  `Context.next_moved`.
* `Context.leads_nested` — the stack stays one of the design.
* `Context.Blames`, `Context.next_fault` — a fault is of something that the innermost circuit lacks,
  or of the sink.
* `Design.WellFormed.withTop` — any circuit can be the top.
* **`Context.run_of_any_top`** — a run ends, goes no deeper than circuits are many, and misses none.
-/

namespace Netscribe

open Relation

/-! ## Stacks of a design -/

/-- **A frame of a circuit of the design**, with parts of it still to be looked at. -/
structure Frame.Of (d : Design) (f : Frame) : Prop where
  circuit : d.circuit? f.id = some f.circuit
  components : f.components ⊆ f.circuit.netlist.components
  instances : f.instances ⊆ f.circuit.netlist.instances

lemma Frame.Of.enter {d : Design} {id : UInt32} {c : Circuit} (hc : d.circuit? id = some c)
    (path : List String) (gated : Bool) : (Frame.enter path id gated c).Of d :=
  ⟨hc, List.Subset.refl _, List.Subset.refl _⟩

/-- **A stack of a design**: each circuit on it is instantiated by the one below. -/
inductive Nested (d : Design) : List Frame → Prop
  | nil : Nested d []
  | cons {f stack} : f.Of d → (∀ g ∈ stack.head?, f.id ∈ g.circuit.netlist.children) →
      Nested d stack → Nested d (f :: stack)

namespace Nested

variable {d : Design} {f : Frame} {stack : List Frame}

/-- The circuits below one on the stack are the way down to it. -/
lemma trail (h : Nested d (f :: stack)) (hacyclic : d.Acyclic) :
    d.Trail (stack.map Frame.id) f.id := by
  induction stack generalizing f with
  | nil => exact .nil
  | cons g stack ih =>
      cases h with
      | cons _ hchild hstack =>
          have hg : d.circuit? g.id = some g.circuit := by
            cases hstack with
            | cons hg _ _ => exact hg.circuit
          exact (ih hstack).push hacyclic hg (hchild g rfl)

/-- **No circuit is on the stack twice**, so it is no deeper than circuits are many. -/
theorem nodup (h : Nested d stack) (hacyclic : d.Acyclic) :
    (stack.map Frame.id).Nodup ∧ stack.length ≤ d.circuits.size := by
  cases h with
  | nil => exact ⟨List.nodup_nil, Nat.zero_le _⟩
  | @cons f stack hf hchild hstack =>
      have htrail := trail (.cons hf hchild hstack) hacyclic
      have hnodup : ((f :: stack).map Frame.id).Nodup :=
        List.nodup_cons.2 ⟨fun hid => hacyclic f.id (htrail.above f.id hid), htrail.nodup⟩
      refine ⟨hnodup, ?_⟩
      rw [← List.length_map Frame.id]
      refine Design.length_le_of_nodup hnodup (List.forall_mem_cons.2 ⟨?_, htrail.exist⟩)
      simp [hf.circuit]

end Nested

/-! ## Steps of the machine -/

/-- **What one step does** to the stack of a design and to the handled names, of which none is
forgotten. -/
inductive Moved {σ : Type} (d : Design) : Config σ → Config σ → Prop
  /-- Less is left to be looked at in the innermost circuit. -/
  | look {f stack handled handled' s s'} (cs is : List Component) : cs ⊆ f.components →
      is ⊆ f.instances → handled ⊆ handled' →
      Moved d ⟨f :: stack, handled, s⟩
        ⟨{ f with components := cs, instances := is } :: stack, handled', s'⟩
  /-- The circuit of an instance is entered, which was not handled. -/
  | enter {f stack handled s} {x : Component} {id gated child} (is : List Component)
      (path : List String) : x ∈ f.instances → is ⊆ f.instances → x.target? = some (id, gated) →
      d.circuit? id = some child → Names.definition child.name gated ∉ handled →
      Moved d ⟨f :: stack, handled, s⟩
        ⟨.enter path id gated child :: { f with instances := is } :: stack, handled, s⟩
  /-- The innermost circuit is left, which is handled then. -/
  | leave {f stack handled handled' s s'} : handled ⊆ handled' →
      Names.definition f.circuit.name f.gated ∈ handled' →
      Moved d ⟨f :: stack, handled, s⟩ ⟨stack, handled', s'⟩

lemma Moved.nested {σ : Type} {d : Design} {cfg cfg' : Config σ} (h : Moved d cfg cfg')
    (hcfg : Nested d cfg.stack) : Nested d cfg'.stack := by
  cases h with
  | look cs is hcs his _ =>
      cases hcfg with
      | cons hf hchild hstack =>
          exact .cons ⟨hf.circuit, List.Subset.trans hcs hf.components,
            List.Subset.trans his hf.instances⟩ hchild hstack
  | @enter f stack handled s x id gated child is path hx his htarget hchild _ =>
      cases hcfg with
      | cons hf hf' hstack =>
          refine .cons (.enter hchild path gated) ?_
            (.cons ⟨hf.circuit, hf.components, List.Subset.trans his hf.instances⟩ hf' hstack)
          rintro g ⟨⟩
          exact List.mem_filterMap.2 ⟨x, hf.instances hx, by simp [Frame.enter, htarget]⟩
  | leave _ _ =>
      cases hcfg with
      | cons _ _ hstack => exact hstack

namespace Context

variable {σ : Type} {ctx : Context} {d : Dialect}
  {offer : GeneratedModule → StateM σ (Except SinkError Unit)} {cfg cfg' : Config σ}
  {path : List String} {stack : List Frame} {handled : List String} {s : σ}

lemma step_of_nextWrite {name directory : String} {definition : Attempt Definition}
    (h : nextWrite d offer path stack handled name directory definition s = .step cfg') :
    ∃ s', cfg' = ⟨stack, name :: handled, s'⟩ := by
  rw [nextWrite] at h
  split at h
  · cases h
  · cases h
    exact ⟨_, rfl⟩

lemma step_of_nextComponent {c : Component}
    (h : ctx.nextComponent d offer path stack handled s c = .step cfg') :
    ∃ handled' s', handled ⊆ handled' ∧ cfg' = ⟨stack, handled', s'⟩ := by
  rw [nextComponent] at h
  split at h
  · cases h
  · split at h
    · cases h
      exact ⟨_, _, List.Subset.refl _, rfl⟩
    · split at h
      · cases h
        exact ⟨_, _, List.subset_cons_self _ _, rfl⟩
      · obtain ⟨s', rfl⟩ := step_of_nextWrite h
        exact ⟨_, s', List.subset_cons_self _ _, rfl⟩

lemma step_of_nextCircuit {gated : Bool} {c : Circuit}
    (h : ctx.nextCircuit d offer path stack handled s gated c = .step cfg') :
    ∃ handled' s', handled ⊆ handled' ∧ Names.definition c.name gated ∈ handled'
      ∧ cfg' = ⟨stack, handled', s'⟩ := by
  rw [nextCircuit] at h
  split at h
  · next hname =>
      cases h
      exact ⟨_, _, List.Subset.refl _, hname, rfl⟩
  · obtain ⟨s', rfl⟩ := step_of_nextWrite h
    exact ⟨_, s', List.subset_cons_self _ _, List.mem_cons_self, rfl⟩

/-- An instance is passed over, or its circuit is entered. -/
lemma step_of_nextInstance {c : Component}
    (h : ctx.nextInstance path stack handled s c = .step cfg') :
    cfg' = ⟨stack, handled, s⟩ ∨ ∃ path' id gated child, c.target? = some (id, gated)
      ∧ ctx.design.circuit? id = some child ∧ Names.definition child.name gated ∉ handled
      ∧ cfg' = ⟨.enter path' id gated child :: stack, handled, s⟩ := by
  rw [nextInstance] at h
  split at h
  · cases h
    exact .inl rfl
  · next id gated htarget =>
      split at h
      · cases h
      · next child hchild =>
          dsimp only at h
          split at h
          · cases h
            exact .inl rfl
          · next hname =>
              cases h
              exact .inr ⟨_, id, gated, child, htarget, hchild, hname, rfl⟩

/-- **Each step does one of three things.** -/
theorem next_moved (h : ctx.next d offer cfg = .step cfg') : Moved ctx.design cfg cfg' := by
  -- an empty stack, a circuit whose components are done, and one with a component left
  obtain ⟨_ | ⟨⟨path, id, gated, circuit, _ | ⟨c, cs⟩, is⟩, stack⟩, handled, s⟩ := cfg
  · cases h
  · cases is with
    | nil =>
        obtain ⟨handled', s', hhandled, hname, rfl⟩ := step_of_nextCircuit h
        exact .leave hhandled hname
    | cons c is =>
        rcases step_of_nextInstance h with
          rfl | ⟨path', id', gated', child, htarget, hchild, hname, rfl⟩
        · exact .look [] is (List.Subset.refl _) (List.subset_cons_self c is) (List.Subset.refl _)
        · exact .enter is path' List.mem_cons_self (List.subset_cons_self c is) htarget hchild hname
  · obtain ⟨handled', s', hhandled, rfl⟩ := step_of_nextComponent h
    exact .look cs is (List.subset_cons_self c cs) (List.Subset.refl _) hhandled

/-- **The stack stays one of the design**, however many steps are made. -/
theorem leads_nested (h : ctx.Leads d offer cfg cfg') (hcfg : Nested ctx.design cfg.stack) :
    Nested ctx.design cfg'.stack := by
  induction h with
  | refl => exact hcfg
  | tail _ hstep ih => exact (next_moved hstep).nested ih

/-! ## Faults of the machine -/

variable {path' : List String} {fault : Fault}

/-- A fault in writing is one of the definition or of the sink. -/
lemma fault_of_nextWrite {name directory : String} {definition : Attempt Definition}
    (h : nextWrite d offer path stack handled name directory definition s = .fault path' fault) :
    path' = path ∧ (definition.outcome = .error fault ∨ ∃ cause, fault = .sink cause) := by
  rw [nextWrite] at h
  split at h
  · next hwrite =>
      obtain ⟨rfl, rfl⟩ := Next.fault.inj h
      refine ⟨rfl, ?_⟩
      rw [write] at hwrite
      split at hwrite
      · next hdefinition => exact .inl (by rw [hdefinition, Except.error.inj hwrite])
      · split at hwrite
        · exact .inr ⟨_, (Except.error.inj hwrite).symm⟩
        · cases hwrite
  · cases h

/-- A fault names what the circuit at hand lacks, or is the sink's. -/
def Blames (ctx : Context) (nl : Netlist) (fault : Fault) : Prop :=
  ctx.Lacks nl fault ∨ ∃ cause, fault = .sink cause

lemma fault_of_nextComponent {nl : Netlist} {c : Component} (hc : c ∈ nl.components)
    (h : ctx.nextComponent d offer path stack handled s c = .fault path' fault) :
    path' = path ∧ ctx.Blames nl fault := by
  rw [nextComponent] at h
  split at h
  · next hnone =>
      obtain ⟨rfl, rfl⟩ := Next.fault.inj h
      exact ⟨rfl, .inl (.generator hc hnone)⟩
  · split at h
    · cases h
    · split at h
      · cases h
      · obtain ⟨rfl, hdefinition | hsink⟩ := fault_of_nextWrite h
        · cases hdefinition
        · exact ⟨rfl, .inr hsink⟩

lemma fault_of_nextInstance {nl : Netlist} {c : Component} (hc : c ∈ nl.instances)
    (h : ctx.nextInstance path stack handled s c = .fault path' fault) :
    path' = path ∧ ctx.Blames nl fault := by
  rw [nextInstance] at h
  split at h
  · cases h
  · next id gated htarget =>
      split at h
      · next hnone =>
          obtain ⟨rfl, rfl⟩ := Next.fault.inj h
          exact ⟨rfl, .inl (.circuit hc htarget hnone)⟩
      · dsimp only at h
        split at h <;> cases h

lemma fault_of_nextCircuit {gated : Bool} {c : Circuit}
    (h : ctx.nextCircuit d offer path stack handled s gated c = .fault path' fault) :
    path' = path ∧ ctx.Blames c.netlist fault := by
  rw [nextCircuit] at h
  split at h
  · cases h
  · obtain ⟨rfl, hdefinition | hsink⟩ := fault_of_nextWrite h
    · exact ⟨rfl, .inl (definition_failsOnly _ hdefinition)⟩
    · exact ⟨rfl, .inr hsink⟩

/-- **A fault arises in the innermost circuit**, and is of something that this lacks or of the
sink. -/
theorem next_fault (hcfg : Nested ctx.design cfg.stack)
    (h : ctx.next d offer cfg = .fault path fault) :
    ∃ f ∈ cfg.stack.head?, path = f.path ∧ f.Of ctx.design
      ∧ ctx.Blames f.circuit.netlist fault := by
  obtain ⟨_ | ⟨f, stack⟩, handled, s⟩ := cfg
  · cases h
  have hf : f.Of ctx.design := by
    cases hcfg with
    | cons hf _ _ => exact hf
  obtain ⟨hpath, hblames⟩ : path = f.path ∧ ctx.Blames f.circuit.netlist fault := by
    obtain ⟨path', id, gated, circuit, _ | ⟨c, cs⟩, is⟩ := f
    · cases is with
      | nil => exact fault_of_nextCircuit h
      | cons c is => exact fault_of_nextInstance (hf.instances List.mem_cons_self) h
    · exact fault_of_nextComponent (hf.components List.mem_cons_self) h
  exact ⟨f, rfl, hpath, hf, hblames⟩

end Context

/-! ## Any circuit on top -/

/-- **Any circuit can be the top** of a well-formed design. -/
theorem Design.WellFormed.withTop {d : Design} (h : d.WellFormed) {id : UInt32} {c : Circuit}
    (hid : d.circuit? id = some c) : { d with top := id }.WellFormed := by
  refine ⟨⟨c, hid⟩, fun x hx => ?_, h.acyclic⟩
  obtain ⟨hnets, hcomponents, hinstances, hpins, hclocks⟩ := h.circuits x hx
  exact ⟨hnets, hcomponents, hinstances, hpins, hclocks⟩

namespace Context

variable {σ : Type} {ctx : Context}

/-- In a well-formed design no circuit lacks the circuit of an instance. -/
lemma ne_missingCircuit_of_blames (h : ctx.design.WellFormed) {f : Frame} (hf : f.Of ctx.design)
    {fault : Fault} (hblames : ctx.Blames f.circuit.netlist fault) (label : String) (id : UInt32) :
    fault ≠ .missingCircuit label id := by
  rintro rfl
  rcases hblames with hlacks | ⟨cause, ⟨⟩⟩
  cases hlacks with
  | @circuit c id gated hc htarget hnone =>
      have hchild : id ∈ f.circuit.netlist.children :=
        List.mem_filterMap.2 ⟨c, hc, by simp [htarget]⟩
      have hexists := Design.exists_of_instantiates h.circuits ⟨f.circuit, hf.circuit, hchild⟩
      simp [hnone] at hexists

/-- **A run ends, whichever circuit is made the top** of a design that is accepted.  The design is
still accepted then.  From entering the top, the machine comes to an end or to a fault, and the run
says which; on the way the stack never has a circuit twice, so it is no deeper than circuits are
many; and the fault is never that a circuit is missing. -/
theorem run_of_any_top {design : Design} (hvalid : design.validate = .ok ()) {id : UInt32}
    {top : Circuit} (hid : design.circuit? id = some top)
    (hctx : ctx.design = { design with top := id }) (scope : String) (d : Dialect)
    (offer : GeneratedModule → StateM σ (Except SinkError Unit)) (s : σ) :
    let start : Config σ := ⟨[.enter [Identifier.ofLabel top.name] id false top], [], s⟩
    ctx.design.validate = .ok ()
    ∧ (∃ cfg, ctx.Leads d offer start cfg
      ∧ ((ctx.next d offer cfg = .done
          ∧ ∃ summary, (ctx.run scope d offer s).1.outcome = .ok summary)
        ∨ ∃ path fault, ctx.next d offer cfg = .fault path fault
          ∧ (ctx.run scope d offer s).1.outcome = .error fault))
    ∧ (∀ cfg, ctx.Leads d offer start cfg →
      (cfg.stack.map Frame.id).Nodup ∧ cfg.stack.length ≤ design.circuits.size)
    ∧ ∀ label missing, (ctx.run scope d offer s).1.outcome ≠ .error (.missingCircuit label missing) := by
  intro start
  have hwell : ctx.design.WellFormed := by
    rw [hctx]
    exact (Design.validate_eq_ok_iff.1 hvalid).withTop hid
  have htop : ctx.design.topCircuit? = some top := by
    rw [hctx]
    exact hid
  have hstart : Nested ctx.design start.stack := by
    refine .cons (.enter ?_ _ _) (by simp) .nil
    rw [hctx]
    exact hid
  have hnested := fun cfg (h : ctx.Leads d offer start cfg) => leads_nested h hstart
  obtain ⟨handled, result, htells, hends⟩ := run_ends hwell.acyclic htop scope d offer s
  have hsize : ctx.design.circuits.size = design.circuits.size := by rw [hctx]
  have hsame : ctx.design.top = id := by rw [hctx]
  rw [hsame] at hends
  -- the machine has one end, and both the way to it and the fault there are told by its stack
  refine ⟨Design.validate_eq_ok_iff.2 hwell, ?_, fun cfg h => ?_, fun label missing herror => ?_⟩
  · cases result with
    | ok s' => exact ⟨_, hends, .inl ⟨rfl, htells.succeeds⟩⟩
    | error e =>
        obtain ⟨cfg, hleads, hnext⟩ := hends
        exact ⟨cfg, hleads, .inr ⟨e.1, e.2, hnext, htells.fails⟩⟩
  · rw [← hsize]
    exact (hnested cfg h).nodup hwell.acyclic
  · cases result with
    | ok s' =>
        obtain ⟨summary, hok⟩ := htells.succeeds
        cases herror.symm.trans hok
    | error e =>
        obtain ⟨cfg, hleads, hnext⟩ := hends
        obtain ⟨f, -, -, hf, hblames⟩ := next_fault (hnested cfg hleads) hnext
        refine ne_missingCircuit_of_blames hwell hf hblames label missing ?_
        exact Except.error.inj (htells.fails.symm.trans herror)

/-- A circuit with a gate, twice in another one, once as its gated variant, and a top that has the
latter. -/
def layered : Design where
  circuits := #[
    { name := "leaf", netlist := {
        components := [{
          label := "g"
          kind := .primitive "AND" .empty
          terminals := .unconnected .output 1 :: List.replicate 2 (.unconnected .input 1) }] } },
    { name := "middle", netlist := {
        instances := [{ kind := .instance 0 false }, { kind := .instance 0 true }] } },
    { name := "main", netlist := { instances := [{ kind := .instance 1 false }] } }]
  top := 2

/-- The design with the circuit in the middle as its top, and some primitives. -/
def middle (registry : Registry) : Context where
  design := { layered with top := 1 }
  registry := registry

/-- With all primitives the run succeeds, and with none it fails for lack of one; either way it is at
most as deep as there are circuits. -/
theorem run_of_any_top_middle :
    layered.validate = .ok ()
    ∧ layered.circuit? 1 = some layered.circuits[1]
    ∧ (∀ registry, (middle registry).design.validate = .ok ()
      ∧ ∀ cfg : Config Unit, (middle registry).Leads .vhdl takeAll
        ⟨[.enter ["middle"] 1 false layered.circuits[1]], [], ()⟩ cfg → cfg.stack.length ≤ 3)
    ∧ (∃ summary, ((middle .builtins).run "" .vhdl takeAll ()).1.outcome = .ok summary)
    ∧ ((middle .empty).run "" .vhdl takeAll ()).1.outcome = .error (.missingGenerator "g" "AND") := by
  have hvalid : layered.validate = .ok () := by decide
  have hid : layered.circuit? 1 = some layered.circuits[1] := rfl
  refine ⟨hvalid, hid, fun registry => ?_, ⟨_, rfl⟩, rfl⟩
  have hctx : (middle registry).design = { layered with top := 1 } := rfl
  obtain ⟨hvalid', -, hdepth, -⟩ := run_of_any_top hvalid hid hctx "" .vhdl takeAll ()
  exact ⟨hvalid', fun cfg hcfg => (hdepth cfg hcfg).2⟩

end Context

end Netscribe
