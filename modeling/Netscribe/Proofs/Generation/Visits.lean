import Netscribe.Proofs.Generation.Depth

/-!
# One visit for each definition

The machine may meet a circuit in as many places as the hierarchy has paths to it, but it enters each
variant at most once: until it has left the circuit it is inside of it, and from then on the name is
handled.  So there is one path at which a definition is made, and what the body warns of is reported
there and nowhere else.

* `Visit`, `Context.Enters` — a variant that is processed at the end of a path.
* `Visit.Kept`, `Context.Enters.unique` — a variant is entered at one path only.
* `Context.Locates`, `Context.plan_locates` — what is planned of a circuit is planned where the
  machine processes it.
* `RunReport.ofTasks_diagnostics` — what a run that succeeds has reported of its tasks.
* **`Context.run_reports_once`** — the diagnostics of a run that succeeds.
-/

namespace Netscribe

open Relation

/-! ## Visits -/

/-- **A visit**: a variant of a circuit that is processed at the end of a path. -/
structure Visit where
  path : List String
  id : UInt32
  gated : Bool
  circuit : Circuit

namespace Visit

def origin (v : Visit) : Origin :=
  .circuit v.id v.gated

/-- The name of the definition. -/
def name (v : Visit) : String :=
  Names.definition v.circuit.name v.gated

/-- **What the body of the circuit reports** at the end of the path. -/
def reports (ctx : Context) (v : Visit) : List Diagnostic :=
  (ctx.sections v.circuit.netlist).reports (scopeText v.path)

end Visit

/-- The visits that the frames of a stack are moments of. -/
def visitsOf (stack : List Frame) : List Visit :=
  stack.map fun f => ⟨f.path, f.id, f.gated, f.circuit⟩

def Origin.isCircuit : Origin → Bool
  | .circuit _ _ => true
  | .primitive _ => false

/-! ### On a stack -/

namespace Nested

variable {d : Design} {stack : List Frame} {v v' : Visit}

lemma circuit?_of_mem (h : Nested d stack) (hv : v ∈ visitsOf stack) :
    d.circuit? v.id = some v.circuit := by
  induction h with
  | nil => cases hv
  | cons hf _ _ ih =>
      rcases List.mem_cons.1 hv with rfl | hv
      · exact hf.circuit
      · exact ih hv

/-- A stack has no two visits of one variant. -/
lemma visit_unique (h : Nested d stack) (hacyclic : d.Acyclic) (hv : v ∈ visitsOf stack)
    (hv' : v' ∈ visitsOf stack) (horigin : v.origin = v'.origin) : v = v' := by
  obtain ⟨f, hf, rfl⟩ := List.mem_map.1 hv
  obtain ⟨f', hf', rfl⟩ := List.mem_map.1 hv'
  have hid : f.id = f'.id := (Origin.circuit.inj horigin).1
  rw [List.inj_on_of_nodup_map (h.nodup hacyclic).1 hf hf' hid]

end Nested

/-! ### One step -/

section Moved

variable {σ : Type} {d : Design} {cfg cfg' : Config σ} {v : Visit}

/-- What a step finds on the stack was there before, or is entered by it. -/
lemma Moved.visits (h : Moved d cfg cfg') (hv : v ∈ visitsOf cfg'.stack) :
    v ∈ visitsOf cfg.stack
      ∨ ∃ stack, cfg'.stack = .enter v.path v.id v.gated v.circuit :: stack := by
  cases h with
  | look cs is _ _ _ => exact .inl hv
  | enter is path _ _ _ _ _ =>
      rcases List.mem_cons.1 hv with rfl | hv
      · exact .inr ⟨_, rfl⟩
      · exact .inl hv
  | leave _ _ => exact .inl (List.mem_cons_of_mem _ hv)

/-- **A visit is not repeated**: it goes on, or it has ended, its name is handled and there is none
of the same variant. -/
def Visit.Kept (v : Visit) (cfg : Config σ) : Prop :=
  v ∈ visitsOf cfg.stack
    ∨ v.name ∈ cfg.handled ∧ ∀ x ∈ visitsOf cfg.stack, x.origin ≠ v.origin

lemma Moved.kept (h : Moved d cfg cfg') (hcfg : Nested d cfg.stack) (hacyclic : d.Acyclic)
    (hcircuit : d.circuit? v.id = some v.circuit) (hv : v.Kept cfg) : v.Kept cfg' := by
  cases h with
  | look cs is _ _ hhandled => exact hv.imp id fun ⟨hname, hnone⟩ => ⟨hhandled hname, hnone⟩
  | @enter f stack handled s x id gated child is path _ _ _ hchild hnew =>
      rcases hv with hv | ⟨hname, hnone⟩
      · exact .inl (List.mem_cons_of_mem _ hv)
      · -- the variant is not entered again, for its name is handled
        refine .inr ⟨hname, List.forall_mem_cons.2 ⟨fun horigin => hnew ?_, hnone⟩⟩
        obtain ⟨hid, hgated⟩ : id = v.id ∧ gated = v.gated := Origin.circuit.inj horigin
        rw [hid, hcircuit] at hchild
        obtain rfl := Option.some.inj hchild
        rwa [hgated]
  | @leave f stack handled handled' s s' hhandled hleft =>
      rcases hv with hv | ⟨hname, hnone⟩
      · rcases List.mem_cons.1 hv with rfl | hv
        · refine .inr ⟨hleft, fun x hx horigin => ?_⟩
          have hids := List.nodup_cons.1 (hcfg.nodup hacyclic).1
          obtain ⟨g, hg, rfl⟩ := List.mem_map.1 hx
          have hid : g.id = f.id := (Origin.circuit.inj horigin).1
          exact hids.1 (hid ▸ List.mem_map_of_mem hg)
        · exact .inl hv
      · exact .inr ⟨hhandled hname, fun x hx => hnone x (List.mem_cons_of_mem _ hx)⟩

end Moved

/-! ### Any number of steps -/

namespace Context

variable {σ : Type} {ctx : Context} {d : Dialect}
  {offer : GeneratedModule → StateM σ (Except SinkError Unit)} {cfg cfg' start : Config σ}
  {v v' : Visit}

/-- **The machine enters a circuit**, at the end of a path. -/
def Enters (ctx : Context) (d : Dialect) (offer : GeneratedModule → StateM σ (Except SinkError Unit))
    (cfg : Config σ) (v : Visit) : Prop :=
  ∃ stack handled s,
    ctx.Leads d offer cfg ⟨.enter v.path v.id v.gated v.circuit :: stack, handled, s⟩

/-- The machine comes to a moment of a visit. -/
def Meets (ctx : Context) (d : Dialect) (offer : GeneratedModule → StateM σ (Except SinkError Unit))
    (cfg : Config σ) (v : Visit) : Prop :=
  ∃ cfg', ctx.Leads d offer cfg cfg' ∧ v ∈ visitsOf cfg'.stack

lemma Enters.meets (h : ctx.Enters d offer cfg v) : ctx.Meets d offer cfg v := by
  obtain ⟨stack, handled, s, hleads⟩ := h
  exact ⟨_, hleads, List.mem_cons_self⟩

lemma Meets.of_leads (h : ctx.Leads d offer cfg cfg') (h' : ctx.Meets d offer cfg' v) :
    ctx.Meets d offer cfg v := by
  obtain ⟨cfg'', hleads, hv⟩ := h'
  exact ⟨cfg'', h.trans hleads, hv⟩

/-- **Whatever is processed was entered**, if that is so at the start. -/
theorem Meets.enters (hstart : ∀ x ∈ visitsOf start.stack, ctx.Enters d offer start x)
    (h : ctx.Meets d offer start v) : ctx.Enters d offer start v := by
  obtain ⟨cfg, hleads, hv⟩ := h
  induction hleads with
  | refl => exact hstart v hv
  | @tail cfg cfg' hleads hstep ih =>
      rcases (next_moved hstep).visits hv with hv | ⟨stack, hstack⟩
      · exact ih hv
      · obtain ⟨stack', handled, s⟩ := cfg'
        obtain rfl := hstack
        exact ⟨stack, handled, s, hleads.tail hstep⟩

lemma Meets.circuit? (hstart : Nested ctx.design start.stack) (h : ctx.Meets d offer start v) :
    ctx.design.circuit? v.id = some v.circuit := by
  obtain ⟨cfg, hleads, hv⟩ := h
  exact (leads_nested hleads hstart).circuit?_of_mem hv

lemma kept_of_leads (hacyclic : ctx.design.Acyclic) (hcfg : Nested ctx.design cfg.stack)
    (h : ctx.Leads d offer cfg cfg') (hv : v ∈ visitsOf cfg.stack) : v.Kept cfg' := by
  induction h with
  | refl => exact .inl hv
  | tail hleads hstep ih =>
      exact (next_moved hstep).kept (leads_nested hleads hcfg) hacyclic (hcfg.circuit?_of_mem hv) ih

/-- **A variant is processed at the end of one path only**, wherever it is instantiated. -/
theorem Meets.unique (hacyclic : ctx.design.Acyclic) (hstart : Nested ctx.design start.stack)
    (h : ctx.Meets d offer start v) (h' : ctx.Meets d offer start v')
    (horigin : v.origin = v'.origin) : v = v' := by
  obtain ⟨cfg, hleads, hv⟩ := h
  obtain ⟨cfg', hleads', hv'⟩ := h'
  -- of two moments of a run one comes after the other
  have hlater : ∀ {c c' : Config σ} {x x' : Visit}, ctx.Leads d offer start c →
      ctx.Leads d offer c c' → x ∈ visitsOf c.stack → x' ∈ visitsOf c'.stack →
      x.origin = x'.origin → x = x' := by
    intro c c' x x' hc hcc' hx hx' hsame
    have hnested := leads_nested hc hstart
    rcases kept_of_leads hacyclic hnested hcc' hx with hkept | ⟨-, hnone⟩
    · exact (leads_nested hcc' hnested).visit_unique hacyclic hkept hx' hsame
    · exact absurd hsame.symm (hnone x' hx')
  have hunique : Relator.RightUnique fun a b : Config σ => ctx.next d offer a = .step b :=
    fun a b c hb hc => Next.step.inj (hb.symm.trans hc)
  rcases ReflTransGen.total_of_right_unique hunique hleads hleads' with hcc' | hcc'
  · exact hlater hleads hcc' hv hv' horigin
  · exact (hlater hleads' hcc' hv' hv horigin.symm).symm

end Context

/-! ## Plans and visits -/

/-- A task writes what a visit is of, and has its path. -/
def Visit.Makes (v : Visit) (t : Task) : Prop :=
  v.path = t.path ∧ v.origin = t.origin

namespace Context

variable {σ : Type} {ctx : Context} {d : Dialect}
  {offer : GeneratedModule → StateM σ (Except SinkError Unit)}

/-- **What a part of the walk plans of circuits, it plans where the machine processes them**: if the
tasks are carried out, each of a circuit has the path of a visit that the machine comes to. -/
def Locates (ctx : Context) (d : Dialect) (offer : GeneratedModule → StateM σ (Except SinkError Unit))
    (p q : Plan) (stack : List Frame) : Prop :=
  ∃ new, q.tasks = p.tasks ++ new ∧ ∀ s s', carryOut d offer none new s = .ok s' →
    ∀ t ∈ new, t.origin.isCircuit = true →
      ∃ v : Visit, v.Makes t ∧ ctx.Meets d offer ⟨stack, p.handled, s⟩ v

namespace Locates

variable {p q r : Plan} {stack stack' : List Frame}

/-- Parts of a walk come one after the other. -/
lemma trans (h : ctx.Locates d offer p q stack) (hfollows : ctx.Follows d offer p q stack stack')
    (h' : q.fault = none → ctx.Locates d offer q r stack') (hhalted : q.fault ≠ none → r = q) :
    ctx.Locates d offer p r stack := by
  by_cases hq : q.fault = none
  · obtain ⟨new, hnew, hlocates⟩ := h
    obtain ⟨new', hnew', hlocates'⟩ := h' hq
    obtain ⟨tasks, htasks, hends⟩ := hfollows
    obtain rfl : new = tasks := List.append_cancel_left (hnew.symm.trans htasks)
    refine ⟨new ++ new', by rw [hnew', hnew, List.append_assoc], fun s s' hs t ht hcircuit => ?_⟩
    rw [carryOut_append] at hs
    cases hfirst : carryOut d offer none new s with
    | error e =>
        rw [hfirst] at hs
        cases hs
    | ok s₁ =>
        rw [hfirst] at hs
        rcases List.mem_append.1 ht with ht | ht
        · exact hlocates s s₁ hfirst t ht hcircuit
        · -- the first part leads to where the second one begins
          have hleads := hends s
          rw [hq, hfirst] at hleads
          obtain ⟨v, hv, hmeets⟩ := hlocates' s₁ s' hs t ht hcircuit
          exact ⟨v, hv, hmeets.of_leads hleads⟩
  · rwa [hhalted hq]

/-- Tasks of primitives alone are not planned of circuits. -/
lemma of_primitives {new : List Task} (hnew : q.tasks = p.tasks ++ new)
    (h : ∀ t ∈ new, t.origin.isCircuit = false) : ctx.Locates d offer p q stack := by
  refine ⟨new, hnew, fun s s' _ t ht hcircuit => ?_⟩
  rw [h t ht] at hcircuit
  cases hcircuit

lemma of_tasks (h : q.tasks = p.tasks) : ctx.Locates d offer p q stack :=
  of_primitives (show q.tasks = p.tasks ++ [] by simp [h]) (by simp)

lemma of_step (hstep : ∀ s, ctx.next d offer ⟨stack, p.handled, s⟩ = .step ⟨stack', p.handled, s⟩)
    (h : ctx.Locates d offer p q stack') : ctx.Locates d offer p q stack := by
  obtain ⟨new, hnew, hlocates⟩ := h
  refine ⟨new, hnew, fun s s' hs t ht hcircuit => ?_⟩
  obtain ⟨v, hv, hmeets⟩ := hlocates s s' hs t ht hcircuit
  exact ⟨v, hv, hmeets.of_leads (.single (hstep s))⟩

end Locates

end Context

namespace Plan

open Context

variable {σ : Type} {ctx : Context} {d : Dialect}
  {offer : GeneratedModule → StateM σ (Except SinkError Unit)} {p : Plan} {path : List String}
  {id : UInt32} {gated : Bool} {circuit : Circuit} {is : List Component} {stack : List Frame}

lemma component_primitives (ctx : Context) (path : List String) (p : Plan) (c : Component) :
    ∃ new, (p.component ctx path c).tasks = p.tasks ++ new
      ∧ ∀ t ∈ new, t.origin.isCircuit = false := by
  rw [component]
  split
  · exact ⟨[], by simp, by simp⟩
  · split
    · exact ⟨[], by simp [halt], by simp⟩
    · dsimp only
      split
      · exact ⟨[], by simp, by simp⟩
      · split
        · exact ⟨[], by simp [mark], by simp⟩
        · exact ⟨[_], rfl, by simp [Origin.isCircuit]⟩

lemma components_primitives (ctx : Context) (path : List String) (p : Plan) (cs : List Component) :
    ∃ new, (cs.foldl (component ctx path) p).tasks = p.tasks ++ new
      ∧ ∀ t ∈ new, t.origin.isCircuit = false := by
  induction cs generalizing p with
  | nil => exact ⟨[], by simp, by simp⟩
  | cons c cs ih =>
      obtain ⟨new, hnew, hprimitives⟩ := component_primitives ctx path p c
      obtain ⟨new', hnew', hprimitives'⟩ := ih (p.component ctx path c)
      refine ⟨new ++ new', by rw [List.foldl_cons, hnew', hnew, List.append_assoc], fun t ht => ?_⟩
      exact (List.mem_append.1 ht).elim (hprimitives t) (hprimitives' t)

/-- What a walk through circuits has to do where so many levels are left. -/
def WalkLocates (ctx : Context) (d : Dialect)
    (offer : GeneratedModule → StateM σ (Except SinkError Unit)) (levels : ℕ) (walk : Walk) : Prop :=
  ∀ path id gated c p stack, ctx.design.circuit? id = some c → ctx.design.Shallow levels id →
    p.fault = none → ctx.Locates d offer p (walk path id gated c p)
      (Frame.enter path id gated c :: stack)

variable {levels : ℕ} {walk : Walk}

lemma instance_locates (hwalk : WalkLocates ctx d offer levels walk) (hp : p.fault = none)
    {c : Component} (hc : ∀ id' gated', c.target? = some (id', gated') →
      ctx.design.Shallow levels id') :
    ctx.Locates d offer p (p.instance ctx path walk c)
      (⟨path, id, gated, circuit, [], c :: is⟩ :: stack) := by
  refine instance_cases (P := fun q => ctx.Locates d offer p q _) path walk c (.of_tasks rfl)
    (fun _ _ _ _ _ => .of_tasks rfl) fun id' gated' child htarget hchild _ hname => ?_
  refine .of_step (fun s => ?_) (hwalk _ _ _ _ _
    (⟨path, id, gated, circuit, [], is⟩ :: stack) hchild (hc id' gated' htarget) hp)
  show ctx.nextInstance path _ _ s c = _
  rw [nextInstance, htarget]
  simp only [hchild, if_neg hname]
  rfl

lemma instances_locate (hwalk : WalkLocates ctx d offer levels walk)
    (hfollows : WalkFollows ctx d offer levels walk) (hp : p.fault = none)
    (hchildren : ∀ c ∈ is, ∀ id' gated', c.target? = some (id', gated') →
      ctx.design.Shallow levels id') :
    ctx.Locates d offer p (is.foldl (Plan.instance ctx path walk) p)
      (⟨path, id, gated, circuit, [], is⟩ :: stack) := by
  induction is generalizing p with
  | nil => exact .of_tasks rfl
  | cons c is ih =>
      have hc := hchildren c List.mem_cons_self
      refine (instance_locates hwalk hp hc).trans (instance_follows hfollows hp hc)
        (fun hq => ih hq fun c' hc' => hchildren c' (List.mem_cons_of_mem _ hc')) fun hhalted => ?_
      exact foldl_of_halted (fun _ _ => instance_of_halted) hhalted is

lemma circuit_locates :
    ctx.Locates d offer p (Plan.circuit ctx path id gated circuit p)
      (⟨path, id, gated, circuit, [], []⟩ :: stack) := by
  rw [Plan.circuit]
  split
  · exact .of_tasks rfl
  · refine ⟨[_], rfl, fun s s' _ t ht _ => ?_⟩
    obtain rfl := List.mem_singleton.1 ht
    exact ⟨⟨path, id, gated, circuit⟩, ⟨rfl, rfl⟩, _, .refl, List.mem_cons_self⟩

/-- **A walk plans circuits where the machine processes them.** -/
theorem visit_locates : ∀ levels, WalkLocates ctx d offer levels (visit ctx levels) := by
  intro levels
  induction levels with
  | zero =>
      intro path id gated c p stack hc hshallow
      cases hc.symm.trans hshallow
  | succ levels ih =>
      intro path id gated c p stack hc hshallow hp
      rw [visit]
      have hfollows : WalkFollows ctx d offer levels (visit ctx levels) := visit_follows levels
      have hchildren : ∀ i ∈ c.netlist.instances, ∀ id' gated', i.target? = some (id', gated') →
          ctx.design.Shallow levels id' := by
        intro i hi id' gated' htarget
        exact hshallow c hc id' (List.mem_filterMap.2 ⟨i, hi, by simp [htarget]⟩)
      have hhalted : ∀ q : Plan, q.fault ≠ none →
          c.netlist.instances.foldl (Plan.instance ctx path (visit ctx levels)) q = q :=
        fun q hq => foldl_of_halted (fun _ _ => instance_of_halted) hq _
      -- the components, the instances and then the circuit itself
      obtain ⟨new, hnew, hprimitives⟩ :=
        components_primitives ctx path p c.netlist.components
      have hcomponents : ctx.Follows d offer p _ (.enter path id gated c :: stack) _ :=
        components_follow hp _
      refine ((Locates.of_primitives hnew hprimitives).trans hcomponents
        (fun hq => instances_locate ih hfollows hq hchildren) (hhalted _)).trans
        (hcomponents.trans (fun hq => instances_follow hfollows hq hchildren) (hhalted _))
        (fun _ => circuit_locates) fun hq => circuit_of_halted hq

end Plan

/-- The plan of a design has its circuits where the machine processes them. -/
theorem Context.plan_locates {σ : Type} {ctx : Context} (d : Dialect)
    (offer : GeneratedModule → StateM σ (Except SinkError Unit)) {top : Circuit}
    (htop : ctx.design.topCircuit? = some top) (hacyclic : ctx.design.Acyclic) :
    ctx.Locates d offer {} (ctx.plan top)
      [.enter [Identifier.ofLabel top.name] ctx.design.top false top] :=
  Plan.visit_locates _ _ _ _ _ _ _ htop (hacyclic.shallow _) rfl

/-! ## Reports -/

/-- An attempt that succeeds reports its warnings. -/
lemma Attempt.reports_of_ok {α : Type} {x : Attempt α} {a : α} (h : x.outcome = .ok a)
    (scope : String) :
    x.reports scope = (x.warnings.map Warning.diagnostic).map (Diagnostic.atScope scope) := by
  rw [reports, faultReport, h, List.append_nil]

section

variable {σ : Type} {offer : GeneratedModule → StateM σ (Except SinkError Unit)} {d : Dialect}
  {fault : Option (List String × Fault)} {tasks : List Task} {s s' : σ}
  {summaries : List ModuleSummary}

/-- A course without a fault reports what the tasks on it do. -/
lemma RunReport.Course.diagnostics_of_ok {modules : List GeneratedModule}
    {r : RunReport (List ModuleSummary)} (h : Course offer d fault tasks s modules r s')
    (hok : r.outcome = .ok summaries) :
    (∃ s', Context.carryOut d offer none tasks s = .ok s')
      ∧ (∀ t ∈ tasks, ∃ m, t.definition.outcome = .ok m)
      ∧ r.diagnostics = tasks.flatMap fun t => t.definition.reports t.scope := by
  induction h generalizing summaries with
  | @finish s =>
      cases fault with
      | none => exact ⟨⟨s, rfl⟩, by simp, rfl⟩
      | some fault => cases hok
  | broken _ => cases hok
  | refused _ _ => cases hok
  | taken hd hoffer _ ih =>
      obtain ⟨rest, hrest⟩ := outcome_map_eq_ok hok
      obtain ⟨⟨s', hs'⟩, hmade, hreports⟩ := ih hrest
      refine ⟨⟨s', ?_⟩, List.forall_mem_cons.2 ⟨⟨_, hd⟩, hmade⟩, ?_⟩
      · rw [Context.carryOut, Context.write, hd]
        simp only [hoffer, hs']
      · rw [List.flatMap_cons, ← hreports]
        rfl

/-- **What a run that succeeds reports** is what its tasks do, one after the other; and they are
carried out. -/
theorem RunReport.ofTasks_diagnostics (h : (ofTasks offer d fault tasks s).1.outcome = .ok summaries) :
    (∃ s', Context.carryOut d offer none tasks s = .ok s')
      ∧ (∀ t ∈ tasks, ∃ m, t.definition.outcome = .ok m)
      ∧ (ofTasks offer d fault tasks s).1.diagnostics
        = tasks.flatMap fun t => t.definition.reports t.scope := by
  obtain ⟨modules, hcourse, -⟩ := exists_course offer d fault tasks s
  exact hcourse.diagnostics_of_ok h

end

namespace Context

variable {ctx : Context} {σ : Type} {d : Dialect}
  {offer : GeneratedModule → StateM σ (Except SinkError Unit)} {scope : String} {s : σ}

lemma warnings_declarations (ctx : Context) (nl : Netlist) : (ctx.declarations nl).warnings = [] := by
  open Attempt in
  refine warnings_bind_eq_nil (warnings_mapM_eq_nil _ fun c => ?_) fun _ =>
    warnings_bind_eq_nil (warnings_mapM_eq_nil _ fun c => ?_) fun _ => rfl
  · exact warnings_bind_eq_nil (warnings_orFail _ _) fun _ => rfl
  · refine warnings_bind_eq_nil ?_ fun target => ?_
    · rw [Context.target]
      split
      · rfl
      · exact warnings_bind_eq_nil (warnings_orFail _ _) fun _ => rfl
    · rcases target with _ | ⟨-, circuit, gated⟩ <;> rfl

/-- **A definition reports what its body does**, and nothing for its interface. -/
lemma reports_definition {c : Circuit} {name : String} {m : Definition}
    (h : (ctx.definition c name).outcome = .ok m) (scope : String) :
    (ctx.definition c name).reports scope = (ctx.sections c.netlist).reports scope := by
  obtain ⟨declarations, sections, hdeclarations, hsections, -⟩ := definition_eq_ok_iff.1 h
  have hwarnings : (ctx.definition c name).warnings = (ctx.sections c.netlist).warnings := by
    rw [Context.definition, Attempt.warnings_bind hdeclarations, Attempt.warnings_bind hsections,
      warnings_declarations, List.nil_append]
    exact List.append_nil _
  rw [Attempt.reports_of_ok h, Attempt.reports_of_ok hsections, hwarnings]

lemma reports_of_primitive {t : Task} (ht : ctx.definitionOf? t.origin = some t.definition)
    (hprimitive : t.origin.isCircuit = false) : t.definition.reports t.scope = [] := by
  obtain ⟨origin, directory, path, definition⟩ := t
  cases origin with
  | circuit id gated => cases hprimitive
  | primitive p =>
      obtain ⟨m, -, rfl⟩ := Option.map_eq_some_iff.1 ht
      rfl

/-- The definition of a circuit reports what its body does, where the circuit was visited. -/
lemma reports_of_visit {t : Task} {v : Visit} {m : Definition}
    (ht : ctx.definitionOf? t.origin = some t.definition) (hok : t.definition.outcome = .ok m)
    (hv : v.Makes t) (hcircuit : ctx.design.circuit? v.id = some v.circuit) :
    t.definition.reports t.scope = v.reports ctx := by
  obtain ⟨hpath, horigin⟩ := hv
  rw [← horigin, Visit.origin, definitionOf?_circuit hcircuit] at ht
  rw [← Option.some.inj ht] at hok ⊢
  rw [reports_definition hok, Task.scope, ← hpath, Visit.reports]

/-- **Each definition reports once.**  A run that succeeds adds to the log what the bodies of the
circuits report that it has written, in the order in which they were written, each once and for one
visit; it adds nothing else.  The visit is the one that the machine makes of this variant: it enters
the circuit at the end of that path and at the end of no other. -/
theorem run_reports_once (hacyclic : ctx.design.Acyclic) {summary : Summary}
    (h : (ctx.run scope d offer s).1.outcome = .ok summary) (log : Log) :
    ∃ top, ctx.design.topCircuit? = some top ∧ ∃ (origins : List Origin) (visits : List Visit),
      let start : Config σ := ⟨[.enter [Identifier.ofLabel top.name] ctx.design.top false top], [], s⟩
      List.Forall₂ (ctx.Makes d) origins (ctx.offered scope d offer s)
      ∧ origins.filter Origin.isCircuit = visits.map Visit.origin
      ∧ (visits.map Visit.origin).Nodup
      ∧ (∀ v ∈ visits, ctx.design.circuit? v.id = some v.circuit ∧ ctx.Enters d offer start v
        ∧ ∀ v', ctx.Enters d offer start v' → v'.origin = v.origin → v' = v)
      ∧ (log.emitAll (ctx.run scope d offer s).1.diagnostics).pending
        = log.pending ++ visits.flatMap (Visit.reports ctx) := by
  obtain ⟨top, htop, -, hmakes⟩ := run_offers h
  have htidy := plan_tidy htop
  rw [run_of_top htop] at h
  obtain ⟨summaries, hok⟩ := RunReport.outcome_map_eq_ok h
  obtain ⟨⟨s', hs'⟩, hmade, hdiagnostics⟩ := RunReport.ofTasks_diagnostics hok
  -- the tasks of circuits have the paths of visits
  have hstart : Nested ctx.design [.enter [Identifier.ofLabel top.name] ctx.design.top false top] :=
    .cons (.enter htop _ _) (by simp) .nil
  obtain ⟨new, hnew, hlocates⟩ := plan_locates d offer htop hacyclic
  obtain rfl : (ctx.plan top).tasks = new := hnew
  obtain ⟨visits, hvisits⟩ := exists_forall₂_iff.2 fun t ht =>
    hlocates s s' hs' t (List.mem_filter.1 ht).1 (List.mem_filter.1 ht).2
  have horigins : (ctx.plan top).origins.filter Origin.isCircuit = visits.map Visit.origin := by
    rw [Plan.origins, List.filter_map]
    exact map_eq_map_of_forall₂ (hvisits.imp fun t v hv => hv.1.2.symm)
  refine ⟨top, htop, _, visits, hmakes, horigins, ?_, fun v hv => ?_, ?_⟩
  · rw [← horigins]
    refine List.Nodup.filter _ (List.Nodup.of_map ctx.nameOf ?_)
    rw [Plan.origins, List.map_map]
    exact htidy.nodup
  · obtain ⟨t, -, -, hmeets⟩ := exists_mem_of_forall₂ hvisits hv
    refine ⟨hmeets.circuit? hstart, hmeets.enters fun x hx => ?_, fun v' hv' horigin => ?_⟩
    · obtain rfl := List.mem_singleton.1 hx
      exact ⟨[], [], s, .refl⟩
    · exact hv'.meets.unique hacyclic hstart hmeets horigin
  · rw [Log.pending_emitAll, run_of_top htop]
    refine congrArg _ (hdiagnostics.trans ?_)
    rw [← flatMap_filter_of_nil (p := fun t => t.origin.isCircuit)
        fun t ht => reports_of_primitive (htidy.made t ht).2, List.flatMap_def, List.flatMap_def]
    refine congrArg List.flatten (map_eq_map_of_forall₂ ?_)
    have htasks : ∀ t ∈ (ctx.plan top).tasks.filter fun t => t.origin.isCircuit,
        t ∈ (ctx.plan top).tasks := fun t ht => (List.mem_filter.1 ht).1
    refine ((List.forall₂_and_left _ _).2 ⟨htasks, hvisits⟩).imp fun t v h => ?_
    obtain ⟨ht, hv, hmeets⟩ := h
    obtain ⟨m, hm⟩ := hmade t ht
    exact reports_of_visit (htidy.made t ht).2 hm hv (hmeets.circuit? hstart)

/-- A circuit with a pin that nothing is connected to, twice in another one. -/
def openPin : Context where
  design := {
    circuits := #[
      { name := "leaf", netlist := {
          outputs := [{ label := "q", terminals := [.unconnected .input 1] }] } },
      { name := "main", netlist := {
          instances := ["u1", "u2"].map fun label => {
            label, kind := .instance 0 false,
            terminals := [.unconnected .output 1 (some "q")] } } }]
    top := 1 }

/-- The pin is reported once, for the first of the two instances, which is the only one in which the
machine enters the circuit. -/
theorem run_reports_once_shared :
    let start : Config Unit := ⟨[.enter ["main"] 1 false openPin.design.circuits[1]], [], ()⟩
    openPin.design.Acyclic
    ∧ (∃ summary, (openPin.run "" .vhdl takeAll ()).1.outcome = .ok summary)
    ∧ (openPin.run "" .vhdl takeAll ()).1.diagnostics
      = [(Warning.unconnectedInput "q").diagnostic.atScope "main/u1"]
    ∧ ∃ v : Visit, scopeText v.path = "main/u1" ∧ openPin.Enters .vhdl takeAll start v
      ∧ ∀ v', openPin.Enters .vhdl takeAll start v' → v'.origin = v.origin → v' = v := by
  intro start
  have hacyclic : openPin.design.Acyclic := Design.acyclic_of_lt (by decide)
  obtain ⟨summary, hok⟩ : ∃ summary, (openPin.run "" .vhdl takeAll ()).1.outcome = .ok summary :=
    ⟨_, rfl⟩
  have hdiagnostics : (openPin.run "" .vhdl takeAll ()).1.diagnostics
      = [(Warning.unconnectedInput "q").diagnostic.atScope "main/u1"] := by rfl
  obtain ⟨top, htop, origins, visits, -, -, -, hvisits, hlog⟩ := run_reports_once hacyclic hok {}
  obtain rfl : openPin.design.circuits[1] = top := Option.some.inj htop
  rw [Log.pending_emitAll, hdiagnostics] at hlog
  -- one of the visits reports the pin, and so it has the path
  obtain ⟨v, hv, hmem⟩ := List.mem_flatMap.1 <|
    (List.append_cancel_left hlog) ▸ List.mem_singleton_self _
  obtain ⟨x, -, hx⟩ := List.mem_map.1 hmem
  obtain ⟨-, henters, hunique⟩ := hvisits v hv
  exact ⟨hacyclic, ⟨summary, hok⟩, hdiagnostics, v, congrArg Diagnostic.scope hx, henters, hunique⟩

end Context

end Netscribe
