import Mathlib.Logic.Relation
import Mathlib.Tactic.Common
import Netscribe.Generation.Plan

/-!
# What a walk can do

A walk through a design changes a plan in three ways only, and does nothing any more once it has
ended at a fault.  Everything that holds of all plans is read off from the three.

* `Origin.isWritten`, `Origin.directory`, `Context.nameOf`, `Context.definitionOf?` — an origin by
  itself: whether it is written, where, under which name and as what.
* `Plan.Step` — the three ways.
* **`Plan.visit_steps`** — a walk takes such steps.
* `Plan.visit_keeps` — what every part of a walk keeps.
* `Plan.Extends`, `Plan.Tidy` — what any number of steps does to a plan, and what it keeps.
-/

namespace Netscribe

/-! ## Origins -/

/-- Is the definition written, and not only what its uses write in place? -/
def Origin.isWritten : Origin → Bool
  | .circuit _ _ => true
  | .primitive p => !p.isInlined

/-- **The directory for what comes from an origin.** -/
def Origin.directory : Origin → String
  | .circuit _ _ => circuitDirectory
  | .primitive p => p.directory

lemma Origin.directory_mem (o : Origin) : o.directory ∈ ["circuit", "gates", "plexers"] := by
  cases o with
  | circuit id gated => simp [directory, circuitDirectory]
  | primitive p => cases p <;> simp [directory, Primitive.directory]

namespace Context

variable (ctx : Context)

/-- **The name of the definition** that comes from an origin. -/
def nameOf : Origin → String
  | .circuit id gated =>
    match ctx.design.circuit? id with
    | some c => Names.definition c.name gated
    | none => ""
  | .primitive p => p.name

/-- **The definition in the making** that comes from an origin, under its own name. -/
def definitionOf? : Origin → Option (Attempt Definition)
  | .circuit id gated =>
    (ctx.design.circuit? id).map fun c => ctx.definition c (Names.definition c.name gated)
  | .primitive p => (p.definition? p.name).map .succeed

variable {ctx}

lemma nameOf_circuit {id : UInt32} {c : Circuit} (h : ctx.design.circuit? id = some c)
    (gated : Bool) : ctx.nameOf (.circuit id gated) = Names.definition c.name gated := by
  simp [nameOf, h]

@[simp] lemma nameOf_primitive (p : Primitive) : ctx.nameOf (.primitive p) = p.name := rfl

lemma definitionOf?_circuit {id : UInt32} {c : Circuit} (h : ctx.design.circuit? id = some c)
    (gated : Bool) :
    ctx.definitionOf? (.circuit id gated)
      = some (ctx.definition c (Names.definition c.name gated)) := by
  simp [definitionOf?, h]

end Context

@[simp] lemma Origin.isWritten_circuit (id : UInt32) (gated : Bool) :
    (Origin.circuit id gated).isWritten = true := rfl

/-- A primitive has a definition of its own exactly if it is written. -/
lemma Primitive.definition?_eq_none_iff {p : Primitive} (name : String) :
    p.definition? name = none ↔ (Origin.primitive p).isWritten = false := by
  cases p <;> simp [definition?, Origin.isWritten, isInlined]

/-! ## Steps -/

namespace Plan

/-- The origins of the planned definitions, in order. -/
def origins (p : Plan) : List Origin :=
  p.tasks.map Task.origin

@[simp] lemma origins_mark (p : Plan) (name : String) : (p.mark name).origins = p.origins := rfl

@[simp] lemma origins_add (p : Plan) (name : String) (task : Task) :
    (p.add name task).origins = p.origins ++ [task.origin] := by
  simp [origins, add]

/-- What a walk through circuits is given: a path, the circuit and the plan so far. -/
abbrev Walk : Type :=
  List String → UInt32 → Bool → Circuit → Plan → Plan

/-- **One step of a walk.** -/
inductive Step (ctx : Context) : Plan → Plan → Prop
  /-- The walk ends at a fault. -/
  | halt {p path fault} : p.fault = none → Step ctx p (p.halt path fault)
  /-- The name of a primitive that is not written is new. -/
  | mark {p primitive} : p.fault = none → (Origin.primitive primitive).isWritten = false →
      primitive.name ∉ p.handled → Step ctx p (p.mark primitive.name)
  /-- A definition is planned whose name is new. -/
  | add {p} (origin : Origin) {directory path definition} : p.fault = none →
      origin.isWritten = true → ctx.definitionOf? origin = some definition →
      ctx.nameOf origin ∉ p.handled →
      Step ctx p (p.add (ctx.nameOf origin) ⟨origin, directory, path, definition⟩)

/-- Any number of steps. -/
abbrev Steps (ctx : Context) : Plan → Plan → Prop :=
  Relation.ReflTransGen (Step ctx)

variable {ctx : Context} {p q : Plan}

lemma foldl_steps {α : Type} {f : Plan → α → Plan} (h : ∀ p x, Steps ctx p (f p x)) (p : Plan) :
    ∀ xs : List α, Steps ctx p (xs.foldl f p) := by
  intro xs
  induction xs generalizing p with
  | nil => exact .refl
  | cons x xs ih => exact (h p x).trans (ih (f p x))

lemma isHalted_eq_false_iff : p.isHalted = false ↔ p.fault = none := by
  simp [isHalted]

lemma isHalted_eq_true_iff : p.isHalted = true ↔ p.fault ≠ none :=
  Option.isSome_iff_ne_none

/-! ## The parts of a walk -/

section Parts

variable {path : List String} {c : Component}

lemma component_of_halted (h : p.isHalted = true) : p.component ctx path c = p := by
  simp [component, h]

lemma component_of_none (path : List String) (h : p.fault = none)
    (hc : ctx.registry.resolve? c = none) :
    p.component ctx path c
      = p.halt path (.missingGenerator c.label (Context.kindText c.kind)) := by
  simp [component, isHalted, h, Context.resolve, hc, Attempt.orFail, Attempt.fail]

/-- **What a known primitive adds**: nothing under a name handled before, else its definition, or
its name alone if it has none. -/
lemma component_of_some {primitive : Primitive} (h : p.fault = none)
    (hc : ctx.registry.resolve? c = some primitive) :
    p.component ctx path c =
      if primitive.name ∈ p.handled then p
      else
        match primitive.definition? primitive.name with
        | none => p.mark primitive.name
        | some definition =>
          p.add primitive.name
            ⟨.primitive primitive, primitive.directory, path, .succeed definition⟩ := by
  rw [component, Context.resolve, hc, if_neg (by simp [isHalted, h])]
  rfl

variable {walk : Walk}

lemma instance_of_halted (h : p.isHalted = true) : p.instance ctx path walk c = p := by
  simp [Plan.instance, h]

lemma instance_of_none (hc : c.target? = none) : p.instance ctx path walk c = p := by
  rw [Plan.instance, Context.target, hc]
  split <;> rfl

variable {id : UInt32} {gated : Bool}

/-- An instance of a circuit that does not exist ends the walk. -/
lemma instance_of_missing (path : List String) (walk : Walk) (h : p.fault = none)
    (hc : c.target? = some (id, gated)) (hcircuit : ctx.design.circuit? id = none) :
    p.instance ctx path walk c = p.halt path (.missingCircuit c.label id) := by
  rw [Plan.instance, Context.target, hc, if_neg (by simp [isHalted, h])]
  dsimp only
  rw [hcircuit]
  rfl

/-- **What an instance adds**: nothing under a name handled before, else all that its circuit
does. -/
lemma instance_of_some {child : Circuit} (h : p.fault = none) (hc : c.target? = some (id, gated))
    (hcircuit : ctx.design.circuit? id = some child) :
    p.instance ctx path walk c =
      if Names.definition child.name gated ∈ p.handled then p
      else
        walk (path ++ [segment c.label (Names.definition child.name gated)]) id gated child p := by
  rw [Plan.instance, Context.target, hc, if_neg (by simp [isHalted, h])]
  dsimp only
  rw [hcircuit]
  rfl

/-- **An instance leaves a plan as it is, ends the walk, or has its circuit walked through.**  So what
holds in each of these cases holds of the plan after it. -/
lemma instance_cases {P : Plan → Prop} (path : List String) (walk : Walk) (c : Component)
    (same : P p)
    (missing : ∀ id gated, c.target? = some (id, gated) → ctx.design.circuit? id = none →
      p.fault = none → P (p.halt path (.missingCircuit c.label id)))
    (enter : ∀ id gated child, c.target? = some (id, gated) →
      ctx.design.circuit? id = some child → p.fault = none →
      Names.definition child.name gated ∉ p.handled →
      P (walk (path ++ [segment c.label (Names.definition child.name gated)]) id gated child p)) :
    P (p.instance ctx path walk c) := by
  cases hp : p.fault with
  | some fault => rwa [instance_of_halted (by simp [isHalted, hp])]
  | none =>
      rcases hc : c.target? with _ | ⟨id, gated⟩
      · rwa [instance_of_none hc]
      · cases hcircuit : ctx.design.circuit? id with
        | none =>
            rw [instance_of_missing path walk hp hc hcircuit]
            exact missing id gated hc hcircuit hp
        | some child =>
            rw [instance_of_some hp hc hcircuit]
            split
            · exact same
            · next hname => exact enter id gated child hc hcircuit hp hname

end Parts

/-! ## A walk takes steps -/

lemma step_of_primitive (path : List String) {primitive : Primitive} (h : p.fault = none)
    (hname : primitive.name ∉ p.handled) :
    Step ctx p
      (match primitive.definition? primitive.name with
        | none => p.mark primitive.name
        | some definition =>
          p.add primitive.name
            ⟨.primitive primitive, primitive.directory, path, .succeed definition⟩) := by
  cases hdefinition : primitive.definition? primitive.name with
  | none => exact .mark h ((Primitive.definition?_eq_none_iff _).1 hdefinition) hname
  | some definition =>
      have hwritten : (Origin.primitive primitive).isWritten = true := by
        rw [← Bool.not_eq_false, ← Primitive.definition?_eq_none_iff primitive.name,
          hdefinition]
        simp
      exact .add (.primitive primitive) h hwritten (by simp [Context.definitionOf?, hdefinition])
        hname

lemma component_steps (ctx : Context) (path : List String) (p : Plan) (c : Component) :
    Steps ctx p (p.component ctx path c) := by
  cases h : p.fault with
  | some fault =>
      rw [component_of_halted (by simp [isHalted, h])]
  | none =>
      cases hc : ctx.registry.resolve? c with
      | none =>
          rw [component_of_none path h hc]
          exact .single (.halt h)
      | some primitive =>
          rw [component_of_some h hc]
          split
          · exact .refl
          · next hname => exact .single (step_of_primitive path h hname)

/-- The definition of a circuit is planned by at most one step. -/
lemma circuit_steps {id : UInt32} {c : Circuit} (hc : ctx.design.circuit? id = some c)
    (path : List String) (gated : Bool) (p : Plan) :
    Steps ctx p (circuit ctx path id gated c p) := by
  rw [circuit]
  split
  · exact .refl
  · next h =>
      simp only [Bool.or_eq_true, decide_eq_true_eq, not_or, Bool.not_eq_true] at h
      obtain ⟨hhalted, hname⟩ := h
      rw [← Context.nameOf_circuit hc gated] at hname
      have hstep : Step ctx p
          (p.add (ctx.nameOf (.circuit id gated)) ⟨.circuit id gated, circuitDirectory, path, _⟩) :=
        .add _ (isHalted_eq_false_iff.1 hhalted) rfl (Context.definitionOf?_circuit hc gated) hname
      rw [Context.nameOf_circuit hc gated] at hstep
      exact .single hstep

/-- An instance is walked through by steps, if its circuit is. -/
lemma instance_steps (path : List String)
    {walk : Walk} (hwalk : ∀ path id gated c p, ctx.design.circuit? id = some c →
      Steps ctx p (walk path id gated c p)) (p : Plan) (c : Component) :
    Steps ctx p (p.instance ctx path walk c) :=
  instance_cases path walk c .refl (fun _ _ _ _ hp => .single (.halt hp))
    fun id gated child _ hchild _ _ => hwalk _ id gated child p hchild

/-- **A walk takes steps only.** -/
theorem visit_steps (levels : ℕ) : ∀ (path : List String) (id : UInt32) (gated : Bool) (c : Circuit)
    (p : Plan), ctx.design.circuit? id = some c →
      Steps ctx p (visit ctx levels path id gated c p) := by
  induction levels with
  | zero =>
      intro path id gated c p _
      exact .refl
  | succ levels ih =>
      intro path id gated c p hc
      have hcomponents := foldl_steps (component_steps ctx path) p c.netlist.components
      have hinstances := foldl_steps (instance_steps path ih)
        (c.netlist.components.foldl (component ctx path) p) c.netlist.instances
      exact (hcomponents.trans hinstances).trans (circuit_steps hc path gated _)

/-! ## What is kept apart from steps -/

/-- **A property of plans that every part of a walk keeps.**  A walk ends where a generator or a circuit
is missing only, and a definition is planned in the directory of its origin. -/
structure Kept (P : Plan → Prop) : Prop where
  noGenerator : ∀ {p} path label kind, P p → P (p.halt path (.missingGenerator label kind))
  noCircuit : ∀ {p} path label id, P p → P (p.halt path (.missingCircuit label id))
  mark : ∀ {p} name, P p → P (p.mark name)
  add : ∀ {p} name task, task.directory = task.origin.directory → P p → P (p.add name task)

section Kept

variable {P : Plan → Prop} {path : List String} {c : Component}

lemma component_keeps (hP : Kept P) (h : P p) : P (p.component ctx path c) := by
  cases hp : p.fault with
  | some fault => rwa [component_of_halted (by simp [isHalted, hp])]
  | none =>
      cases hc : ctx.registry.resolve? c with
      | none =>
          rw [component_of_none path hp hc]
          exact hP.noGenerator _ _ _ h
      | some primitive =>
          rw [component_of_some hp hc]
          split
          · exact h
          · split
            · exact hP.mark _ h
            · exact hP.add _ _ rfl h

lemma instance_keeps (hP : Kept P) {walk : Walk}
    (hwalk : ∀ path id gated c p, P p → P (walk path id gated c p)) (h : P p) :
    P (p.instance ctx path walk c) :=
  instance_cases path walk c h (fun _ _ _ _ _ => hP.noCircuit _ _ _ h)
    fun id gated child _ _ _ _ => hwalk _ id gated child p h

/-- **A walk keeps what its parts keep.** -/
theorem visit_keeps (hP : Kept P) (levels : ℕ) : ∀ (path : List String) (id : UInt32)
    (gated : Bool) (c : Circuit) (p : Plan), P p → P (visit ctx levels path id gated c p) := by
  induction levels with
  | zero =>
      intro path id gated c p h
      exact h
  | succ levels ih =>
      intro path id gated c p h
      have hcomponents : P (c.netlist.components.foldl (component ctx path) p) :=
        List.foldlRecOn _ _ h fun _ hq _ _ => component_keeps hP hq
      have hinstances : P (c.netlist.instances.foldl (Plan.instance ctx path (visit ctx levels))
          (c.netlist.components.foldl (component ctx path) p)) :=
        List.foldlRecOn _ _ hcomponents fun _ hq _ _ => instance_keeps hP ih hq
      rw [visit, circuit]
      split
      · exact hinstances
      · exact hP.add _ _ rfl hinstances

end Kept

/-! ## What steps do, and what they keep -/

/-- **What any number of steps does to a plan**: it adds tasks under new names, forgets no name and
goes on after no fault. -/
structure Extends (ctx : Context) (p q : Plan) : Prop where
  /-- Tasks are added at the end, under names not handled before. -/
  tasks : ∃ new, q.tasks = p.tasks ++ new ∧ ∀ t ∈ new, ctx.nameOf t.origin ∉ p.handled
  /-- A handled name stays handled. -/
  handled : p.handled ⊆ q.handled
  running : q.fault = none → p.fault = none

lemma Step.extends_of (h : Step ctx p q) : Extends ctx p q := by
  cases h with
  | halt h => exact ⟨⟨[], by simp [Plan.halt], by simp⟩, List.Subset.refl _, fun _ => h⟩
  | mark h _ _ => exact ⟨⟨[], by simp [Plan.mark], by simp⟩, List.subset_cons_self _ _, fun _ => h⟩
  | add origin h _ _ hname =>
      exact ⟨⟨[_], rfl, by simpa using hname⟩, List.subset_cons_self _ _, fun _ => h⟩

/-- **Any number of steps.** -/
theorem Steps.extends_of (h : Steps ctx p q) : Extends ctx p q := by
  induction h with
  | refl => exact ⟨⟨[], by simp, by simp⟩, List.Subset.refl _, fun h => h⟩
  | @tail q r _ hstep ih =>
      obtain ⟨⟨new, htasks, hnew⟩, hhandled, hrunning⟩ := ih
      obtain ⟨⟨new', htasks', hnew'⟩, hhandled', hrunning'⟩ := hstep.extends_of
      refine ⟨⟨new ++ new', by rw [htasks', htasks, List.append_assoc], ?_⟩,
        fun x hx => hhandled' (hhandled hx), fun h => hrunning (hrunning' h)⟩
      intro t ht
      rcases List.mem_append.1 ht with ht | ht
      · exact hnew t ht
      · exact fun hmem => hnew' t ht (hhandled hmem)

/-- **What every plan keeps**: its tasks are what their origins make, each written, and under
different names, all of which are handled. -/
structure Tidy (ctx : Context) (p : Plan) : Prop where
  /-- A task is written, and is what its origin makes. -/
  made : ∀ t ∈ p.tasks, t.origin.isWritten = true ∧ ctx.definitionOf? t.origin = some t.definition
  handled : ∀ t ∈ p.tasks, ctx.nameOf t.origin ∈ p.handled
  /-- No two tasks have one name. -/
  nodup : (p.tasks.map fun t => ctx.nameOf t.origin).Nodup

lemma tidy_empty : Tidy ctx {} :=
  ⟨by simp, by simp, by simp⟩

lemma Step.tidy (h : Step ctx p q) (hp : Tidy ctx p) : Tidy ctx q := by
  cases h with
  | halt => exact ⟨hp.made, hp.handled, hp.nodup⟩
  | mark => exact ⟨hp.made, fun t ht => List.mem_cons_of_mem _ (hp.handled t ht), hp.nodup⟩
  | add origin _ hwritten hdefinition hname =>
      refine ⟨fun t ht => ?_, fun t ht => ?_, ?_⟩
      · rcases List.mem_append.1 ht with ht | ht
        · exact hp.made t ht
        · obtain rfl := List.mem_singleton.1 ht
          exact ⟨hwritten, hdefinition⟩
      · rcases List.mem_append.1 ht with ht | ht
        · exact List.mem_cons_of_mem _ (hp.handled t ht)
        · obtain rfl := List.mem_singleton.1 ht
          exact List.mem_cons_self
      · simp only [Plan.add, List.map_append, List.map_cons, List.map_nil]
        refine List.nodup_append.2 ⟨hp.nodup, by simp, ?_⟩
        rintro name hmem _ hsingle rfl
        obtain ⟨t, ht, rfl⟩ := List.mem_map.1 hmem
        have hsame : ctx.nameOf t.origin = ctx.nameOf origin := List.mem_singleton.1 hsingle
        exact hname (hsame ▸ hp.handled t ht)

/-- **Any number of steps keeps a plan tidy.** -/
theorem Steps.tidy (h : Steps ctx p q) (hp : Tidy ctx p) : Tidy ctx q := by
  induction h with
  | refl => exact hp
  | tail _ hstep ih => exact hstep.tidy ih

end Plan

namespace Context

variable {ctx : Context} {top : Circuit}

lemma plan_steps (h : ctx.design.topCircuit? = some top) : Plan.Steps ctx {} (ctx.plan top) :=
  Plan.visit_steps _ _ _ _ _ _ h

/-- **The plan of a design is tidy.** -/
theorem plan_tidy (h : ctx.design.topCircuit? = some top) : Plan.Tidy ctx (ctx.plan top) :=
  (plan_steps h).tidy Plan.tidy_empty

end Context

end Netscribe
