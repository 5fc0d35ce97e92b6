import Mathlib.Logic.Relation
import Netscribe.Generation.Run
import Netscribe.Proofs.Design.Acyclic
import Netscribe.Proofs.Generation.Walk

/-!
# A run as a machine

A run first plans everything and then writes what it has planned.  The machine of this file does
both at once: it keeps a stack of the circuits that are being processed, and in each step looks at
the next thing that the innermost of them asks for.  A plan that is carried out ends as the machine
does, and so a fault arises in the circuit on top of the stack.

* `Frame`, `Config` — a circuit that is being processed, and all there is at a moment.
* `Context.next` — what the machine does next.
* `Context.Faults` — the machine comes to a fault, and to one at most.
* `Context.carryOut` — what becomes of a plan that is carried out.
* `Context.Follows` — a part of the walk does what the machine does.
* **`Context.plan_follows`** — the plan of a design does what the machine does.
-/

namespace Netscribe

variable {σ : Type}

/-! ## The machine -/

/-- **A circuit that is being processed**, at the end of a path, with what is still to be looked
at. -/
structure Frame where
  path : List String
  id : UInt32
  gated : Bool
  circuit : Circuit
  components : List Component
  instances : List Component

/-- A circuit of which nothing has been looked at. -/
def Frame.enter (path : List String) (id : UInt32) (gated : Bool) (c : Circuit) : Frame :=
  ⟨path, id, gated, c, c.netlist.components, c.netlist.instances⟩

/-- **All there is at a moment**: the circuits that are being processed, the innermost first, the
names handled so far, and the state of the sink. -/
structure Config (σ : Type) where
  stack : List Frame
  handled : List String
  sink : σ

/-- What comes next. -/
inductive Next (σ : Type) where
  | step (cfg : Config σ)
  /-- A fault arises in the circuit at the end of a path. -/
  | fault (path : List String) (fault : Fault)
  | done

namespace Context

variable (ctx : Context) (d : Dialect)
  (offer : GeneratedModule → StateM σ (Except SinkError Unit))

/-- Makes a definition and offers it: the new state of the sink, or the fault. -/
def write (directory : String) (definition : Attempt Definition) (s : σ) : Except Fault σ :=
  match definition.outcome with
  | .error fault => .error fault
  | .ok m =>
    match offer (.ofDefinition d directory m) s with
    | (.error cause, _) => .error (.sink cause)
    | (.ok (), s') => .ok s'

/-- Writes a definition at a path; its name is handled then. -/
def nextWrite (path : List String) (stack : List Frame) (handled : List String) (name : String)
    (directory : String) (definition : Attempt Definition) (s : σ) : Next σ :=
  match write d offer directory definition s with
  | .error fault => .fault path fault
  | .ok s' => .step ⟨stack, name :: handled, s'⟩

/-- A component has a primitive, which is written unless its name was handled or it is written in
place. -/
def nextComponent (path : List String) (stack : List Frame) (handled : List String) (s : σ)
    (c : Component) : Next σ :=
  match ctx.registry.resolve? c with
  | none => .fault path (.missingGenerator c.label (kindText c.kind))
  | some p =>
    if p.name ∈ handled then .step ⟨stack, handled, s⟩
    else
      match p.definition? p.name with
      | none => .step ⟨stack, p.name :: handled, s⟩
      | some m => nextWrite d offer path stack handled p.name p.directory (.succeed m) s

/-- An instance has a circuit, which is entered unless its name was handled. -/
def nextInstance (path : List String) (stack : List Frame) (handled : List String) (s : σ)
    (c : Component) : Next σ :=
  match c.target? with
  | none => .step ⟨stack, handled, s⟩
  | some (id, gated) =>
    match ctx.design.circuit? id with
    | none => .fault path (.missingCircuit c.label id)
    | some child =>
      let name := Names.definition child.name gated
      if name ∈ handled then .step ⟨stack, handled, s⟩
      else
        let segment := if c.label.isEmpty then name else Identifier.ofLabel c.label
        .step ⟨.enter (path ++ [segment]) id gated child :: stack, handled, s⟩

/-- A circuit of which all has been looked at is written, unless its name was handled. -/
def nextCircuit (path : List String) (stack : List Frame) (handled : List String) (s : σ)
    (gated : Bool) (c : Circuit) : Next σ :=
  let name := Names.definition c.name gated
  if name ∈ handled then .step ⟨stack, handled, s⟩
  else nextWrite d offer path stack handled name circuitDirectory (ctx.definition c name) s

/-- **What the machine does next**: it looks at the components, the instances and then the circuit
itself, of the innermost circuit. -/
def next : Config σ → Next σ
  | ⟨[], _, _⟩ => .done
  | ⟨⟨path, id, gated, circuit, c :: cs, is⟩ :: stack, handled, s⟩ =>
    ctx.nextComponent d offer path (⟨path, id, gated, circuit, cs, is⟩ :: stack) handled s c
  | ⟨⟨path, id, gated, circuit, [], c :: is⟩ :: stack, handled, s⟩ =>
    ctx.nextInstance path (⟨path, id, gated, circuit, [], is⟩ :: stack) handled s c
  | ⟨⟨path, _, gated, circuit, [], []⟩ :: stack, handled, s⟩ =>
    ctx.nextCircuit d offer path stack handled s gated circuit

/-- Any number of steps of the machine. -/
abbrev Leads : Config σ → Config σ → Prop :=
  Relation.ReflTransGen fun cfg cfg' => ctx.next d offer cfg = .step cfg'

/-- **The machine comes to a fault**, in the circuit at the end of a path. -/
def Faults (cfg : Config σ) (path : List String) (fault : Fault) : Prop :=
  ∃ cfg', ctx.Leads d offer cfg cfg' ∧ ctx.next d offer cfg' = .fault path fault

/-! ## Plans that are carried out -/

/-- **What becomes of tasks that are carried out**, and then of the fault at which the plan ended:
the state of the sink, or the first fault and where it arose. -/
def carryOut (fault : Option (List String × Fault)) :
    List Task → σ → Except (List String × Fault) σ
  | [], s =>
    match fault with
    | none => .ok s
    | some fault => .error fault
  | task :: tasks, s =>
    match write d offer task.directory task.definition s with
    | .error fault => .error (task.path, fault)
    | .ok s' => carryOut fault tasks s'

/-- The machine ends as a result says: at a fault, or at a stack with some names handled. -/
def Ends (cfg : Config σ) (stack : List Frame) (handled : List String) :
    Except (List String × Fault) σ → Prop
  | .error (path, fault) => ctx.Faults d offer cfg path fault
  | .ok s => ctx.Leads d offer cfg ⟨stack, handled, s⟩

/-- **A part of the walk does what the machine does** from one stack to another: the machine ends as
what it adds to the plan does when it is carried out. -/
def Follows (p q : Plan) (stack stack' : List Frame) : Prop :=
  ∃ new, q.tasks = p.tasks ++ new ∧ ∀ s,
    ctx.Ends d offer ⟨stack, p.handled, s⟩ stack' q.handled (carryOut d offer q.fault new s)

variable {ctx d offer} {p q r : Plan} {stack stack' stack'' : List Frame}

lemma carryOut_append (fault : Option (List String × Fault)) (tasks tasks' : List Task) (s : σ) :
    carryOut d offer fault (tasks ++ tasks') s
      = carryOut d offer none tasks s >>= carryOut d offer fault tasks' := by
  induction tasks generalizing s with
  | nil => rfl
  | cons task tasks ih =>
      rw [List.cons_append, carryOut, carryOut]
      cases write d offer task.directory task.definition s with
      | error fault => rfl
      | ok s' => exact ih s'

/-- Where a plan ended at a fault, there is a fault in the end. -/
lemma carryOut_of_fault (d : Dialect) (offer : GeneratedModule → StateM σ (Except SinkError Unit))
    (fault : List String × Fault) (tasks : List Task) (s : σ) :
    ∃ e, carryOut d offer (some fault) tasks s = .error e := by
  induction tasks generalizing s with
  | nil => exact ⟨fault, rfl⟩
  | cons task tasks ih =>
      rw [carryOut]
      cases write d offer task.directory task.definition s with
      | error fault => exact ⟨_, rfl⟩
      | ok s' => exact ih s'

/-- What comes before does not change how the machine ends. -/
lemma Ends.of_leads {cfg cfg' : Config σ} {handled : List String}
    {result : Except (List String × Fault) σ} (h : ctx.Leads d offer cfg cfg')
    (h' : ctx.Ends d offer cfg' stack handled result) : ctx.Ends d offer cfg stack handled result := by
  cases result with
  | ok s => exact h.trans h'
  | error e =>
      obtain ⟨cfg'', hleads, hnext⟩ := h'
      exact ⟨cfg'', h.trans hleads, hnext⟩

/-- **The machine comes to one fault at most.** -/
theorem Faults.unique {cfg : Config σ} {path path' : List String} {fault fault' : Fault}
    (h : ctx.Faults d offer cfg path fault) (h' : ctx.Faults d offer cfg path' fault') :
    path = path' ∧ fault = fault' := by
  obtain ⟨cfg₁, hleads, hnext⟩ := h
  obtain ⟨cfg₂, hleads', hnext'⟩ := h'
  -- at a fault there is no further step
  have hstop : ∀ {a b path fault}, ctx.next d offer a = .fault path fault →
      ctx.Leads d offer a b → a = b := by
    intro a b path fault ha hab
    rcases hab.cases_head with rfl | ⟨c, hc, -⟩
    · rfl
    · cases ha.symm.trans hc
  have hsame : cfg₁ = cfg₂ := by
    have hunique : Relator.RightUnique fun a b : Config σ => ctx.next d offer a = .step b :=
      fun a b c hb hc => Next.step.inj (hb.symm.trans hc)
    rcases Relation.ReflTransGen.total_of_right_unique hunique hleads hleads' with h | h
    · exact hstop hnext h
    · exact (hstop hnext' h).symm
  rw [hsame] at hnext
  exact Next.fault.inj (hnext.symm.trans hnext')

/-! ## Parts of a walk -/

namespace Follows

/-- **Parts of a walk come one after the other**; after a fault there is nothing more. -/
lemma trans (h : ctx.Follows d offer p q stack stack')
    (h' : q.fault = none → ctx.Follows d offer q r stack' stack'')
    (hhalted : q.fault ≠ none → r = q) : ctx.Follows d offer p r stack stack'' := by
  obtain ⟨new, hnew, hrun⟩ := h
  cases hq : q.fault with
  | some fault =>
      -- the first part ends at this fault or at one of a task before it
      obtain rfl := hhalted (by simp [hq])
      refine ⟨new, hnew, fun s => ?_⟩
      have hrun := hrun s
      rw [hq] at hrun ⊢
      obtain ⟨e, he⟩ := carryOut_of_fault d offer fault new s
      rw [he] at hrun ⊢
      exact hrun
  | none =>
      obtain ⟨new', hnew', hrun'⟩ := h' hq
      refine ⟨new ++ new', by rw [hnew', hnew, List.append_assoc], fun s => ?_⟩
      have hrun := hrun s
      rw [hq] at hrun
      rw [carryOut_append]
      cases hs : carryOut d offer none new s with
      | error e =>
          rw [hs] at hrun
          exact hrun
      | ok s' =>
          rw [hs] at hrun
          exact (hrun' s').of_leads hrun

lemma refl (hp : p.fault = none) : ctx.Follows d offer p p stack stack := by
  refine ⟨[], (List.append_nil _).symm, fun s => ?_⟩
  rw [hp]
  exact .refl

/-- A step before. -/
lemma of_step (hstep : ∀ s, ctx.next d offer ⟨stack, p.handled, s⟩ = .step ⟨stack', p.handled, s⟩)
    (h : ctx.Follows d offer p q stack' stack'') : ctx.Follows d offer p q stack stack'' := by
  obtain ⟨new, hnew, hrun⟩ := h
  exact ⟨new, hnew, fun s => (hrun s).of_leads (.single (hstep s))⟩

/-- A step that handles a name without a definition. -/
lemma mark {name : String} (hp : p.fault = none)
    (h : ∀ s, ctx.next d offer ⟨stack, p.handled, s⟩ = .step ⟨stack', name :: p.handled, s⟩) :
    ctx.Follows d offer p (p.mark name) stack stack' := by
  refine ⟨[], (List.append_nil _).symm, fun s => ?_⟩
  show ctx.Ends d offer _ _ _ (carryOut d offer p.fault [] s)
  rw [hp]
  exact .single (h s)

/-- A step at a fault. -/
lemma halt {path : List String} {fault : Fault}
    (h : ∀ s, ctx.next d offer ⟨stack, p.handled, s⟩ = .fault path fault) :
    ctx.Follows d offer p (p.halt path fault) stack stack' :=
  ⟨[], (List.append_nil _).symm, fun s => ⟨_, .refl, h s⟩⟩

/-- **A step that writes a definition.** -/
lemma add {name : String} {task : Task} (hp : p.fault = none)
    (h : ∀ s, ctx.next d offer ⟨stack, p.handled, s⟩
      = nextWrite d offer task.path stack' p.handled name task.directory task.definition s) :
    ctx.Follows d offer p (p.add name task) stack stack' := by
  refine ⟨[task], rfl, fun s => ?_⟩
  have hnext := h s
  show ctx.Ends d offer _ _ _ (carryOut d offer p.fault [task] s)
  rw [hp, carryOut]
  rw [nextWrite] at hnext
  cases hwrite : write d offer task.directory task.definition s with
  | error fault =>
      rw [hwrite] at hnext
      exact ⟨_, .refl, hnext⟩
  | ok s' =>
      rw [hwrite] at hnext
      exact .single hnext

end Follows

end Context

namespace Plan

open Context

variable {ctx : Context} {d : Dialect} {offer : GeneratedModule → StateM σ (Except SinkError Unit)}
  {p : Plan} {path : List String} {id : UInt32} {gated : Bool} {circuit : Circuit}
  {is : List Component} {stack : List Frame}

lemma foldl_of_halted {f : Plan → Component → Plan} (hf : ∀ p c, p.isHalted = true → f p c = p)
    (hp : p.fault ≠ none) (cs : List Component) : cs.foldl f p = p := by
  induction cs with
  | nil => rfl
  | cons c cs ih =>
      rw [List.foldl_cons, hf p c (isHalted_eq_true_iff.2 hp), ih]

lemma component_follows (hp : p.fault = none) (c : Component) (cs : List Component) :
    ctx.Follows d offer p (p.component ctx path c)
      (⟨path, id, gated, circuit, c :: cs, is⟩ :: stack)
      (⟨path, id, gated, circuit, cs, is⟩ :: stack) := by
  have hnext : ∀ s, ctx.next d offer
      ⟨⟨path, id, gated, circuit, c :: cs, is⟩ :: stack, p.handled, s⟩
        = ctx.nextComponent d offer path (⟨path, id, gated, circuit, cs, is⟩ :: stack) p.handled s c :=
    fun _ => rfl
  cases hc : ctx.registry.resolve? c with
  | none =>
      rw [component_of_none path hp hc]
      refine .halt fun s => ?_
      rw [hnext, nextComponent, hc]
  | some primitive =>
      rw [component_of_some hp hc]
      split
      · next hname =>
          refine .of_step (fun s => ?_) (.refl hp)
          rw [hnext, nextComponent, hc]
          exact if_pos hname
      · next hname =>
          split
          · next hnone =>
              refine .mark hp fun s => ?_
              rw [hnext, nextComponent, hc]
              simp only [if_neg hname, hnone]
          · next m hsome =>
              refine .add hp fun s => ?_
              rw [hnext, nextComponent, hc]
              simp only [if_neg hname, hsome]

lemma components_follow (hp : p.fault = none) (cs : List Component) :
    ctx.Follows d offer p (cs.foldl (component ctx path) p)
      (⟨path, id, gated, circuit, cs, is⟩ :: stack) (⟨path, id, gated, circuit, [], is⟩ :: stack) := by
  induction cs generalizing p with
  | nil => exact .refl hp
  | cons c cs ih =>
      exact (component_follows hp c cs).trans ih fun hhalted =>
        foldl_of_halted (fun _ _ => component_of_halted) hhalted cs

/-- What a walk through circuits has to do where so many levels are left. -/
def WalkFollows (ctx : Context) (d : Dialect)
    (offer : GeneratedModule → StateM σ (Except SinkError Unit)) (levels : ℕ) (walk : Walk) : Prop :=
  ∀ path id gated c p stack, ctx.design.circuit? id = some c → ctx.design.Shallow levels id →
    p.fault = none → ctx.Follows d offer p (walk path id gated c p)
      (Frame.enter path id gated c :: stack) stack

variable {levels : ℕ} {walk : Walk}

lemma instance_follows (hwalk : WalkFollows ctx d offer levels walk) (hp : p.fault = none)
    {c : Component} (hc : ∀ id' gated', c.target? = some (id', gated') →
      ctx.design.Shallow levels id') :
    ctx.Follows d offer p (p.instance ctx path walk c)
      (⟨path, id, gated, circuit, [], c :: is⟩ :: stack)
      (⟨path, id, gated, circuit, [], is⟩ :: stack) := by
  have hnext : ∀ s, ctx.next d offer
      ⟨⟨path, id, gated, circuit, [], c :: is⟩ :: stack, p.handled, s⟩
        = ctx.nextInstance path (⟨path, id, gated, circuit, [], is⟩ :: stack) p.handled s c :=
    fun _ => rfl
  rcases htarget : c.target? with _ | ⟨id', gated'⟩
  · rw [instance_of_none htarget]
    refine .of_step (fun s => ?_) (.refl hp)
    rw [hnext, nextInstance, htarget]
  · cases hchild : ctx.design.circuit? id' with
    | none =>
        rw [instance_of_missing path walk hp htarget hchild]
        refine .halt fun s => ?_
        rw [hnext, nextInstance, htarget]
        simp only [hchild]
    | some child =>
        rw [instance_of_some hp htarget hchild]
        split
        · next hname =>
            refine .of_step (fun s => ?_) (.refl hp)
            rw [hnext, nextInstance, htarget]
            simp only [hchild, if_pos hname]
        · next hname =>
            refine .of_step (fun s => ?_) (hwalk _ _ _ _ _ _ hchild (hc id' gated' htarget) hp)
            rw [hnext, nextInstance, htarget]
            simp only [hchild, if_neg hname]
            rfl

lemma instances_follow (hwalk : WalkFollows ctx d offer levels walk) (hp : p.fault = none)
    (hchildren : ∀ c ∈ is, ∀ id' gated', c.target? = some (id', gated') →
      ctx.design.Shallow levels id') :
    ctx.Follows d offer p (is.foldl (Plan.instance ctx path walk) p)
      (⟨path, id, gated, circuit, [], is⟩ :: stack) (⟨path, id, gated, circuit, [], []⟩ :: stack) := by
  induction is generalizing p with
  | nil => exact .refl hp
  | cons c is ih =>
      refine (instance_follows hwalk hp (hchildren c List.mem_cons_self)).trans
        (fun hq => ih hq fun c' hc' => hchildren c' (List.mem_cons_of_mem _ hc')) fun hhalted => ?_
      exact foldl_of_halted (fun _ _ => instance_of_halted) hhalted is

lemma circuit_follows (hp : p.fault = none) :
    ctx.Follows d offer p (Plan.circuit ctx path id gated circuit p)
      (⟨path, id, gated, circuit, [], []⟩ :: stack) stack := by
  have hnext : ∀ s, ctx.next d offer ⟨⟨path, id, gated, circuit, [], []⟩ :: stack, p.handled, s⟩
      = ctx.nextCircuit d offer path stack p.handled s gated circuit := fun _ => rfl
  have hhalted : p.isHalted = false := isHalted_eq_false_iff.2 hp
  rw [Plan.circuit]
  by_cases hname : Names.definition circuit.name gated ∈ p.handled
  · rw [if_pos (by simp [hname])]
    refine .of_step (fun s => ?_) (.refl hp)
    rw [hnext, nextCircuit]
    exact if_pos hname
  · rw [if_neg (by simp [hname, hhalted])]
    refine .add hp fun s => ?_
    rw [hnext, nextCircuit]
    exact if_neg hname

lemma circuit_of_halted (hp : p.fault ≠ none) : Plan.circuit ctx path id gated circuit p = p := by
  rw [Plan.circuit, if_pos (by simp [isHalted_eq_true_iff.2 hp])]

/-- **A walk through a circuit does what the machine does** from entering the circuit to leaving
it. -/
theorem visit_follows : ∀ levels, WalkFollows ctx d offer levels (visit ctx levels) := by
  intro levels
  induction levels with
  | zero =>
      intro path id gated c p stack hc hshallow
      cases hc.symm.trans hshallow
  | succ levels ih =>
      intro path id gated c p stack hc hshallow hp
      rw [visit]
      have hchildren : ∀ i ∈ c.netlist.instances, ∀ id' gated', i.target? = some (id', gated') →
          ctx.design.Shallow levels id' := by
        intro i hi id' gated' htarget
        exact hshallow c hc id' (List.mem_filterMap.2 ⟨i, hi, by simp [htarget]⟩)
      refine ((components_follow hp _).trans (fun hq => instances_follow ih hq hchildren)
        fun hhalted => ?_).trans (fun hq => circuit_follows hq) fun hhalted => ?_
      · exact foldl_of_halted (fun _ _ => instance_of_halted) hhalted _
      · exact circuit_of_halted hhalted

end Plan

/-- **The plan of a design does what the machine does**, from entering the top circuit to the empty
stack. -/
theorem Context.plan_follows {ctx : Context} (d : Dialect)
    (offer : GeneratedModule → StateM σ (Except SinkError Unit)) {top : Circuit}
    (htop : ctx.design.topCircuit? = some top) (hacyclic : ctx.design.Acyclic) :
    ctx.Follows d offer {} (ctx.plan top)
      [.enter [Identifier.ofLabel top.name] ctx.design.top false top] [] :=
  Plan.visit_follows _ _ _ _ _ _ _ htop (hacyclic.shallow _) rfl

end Netscribe
