import Netscribe.Proofs.Generation.Completeness
import Netscribe.Proofs.Generation.Visits
import Netscribe.Proofs.Generation.Writing

/-!
# Primitives that share a name

A walk looks at the names of primitives only: whatever has been handled under a name, the next component
with this name is passed over.  This is right as far as names tell what is written, and those of
primitives do.  So of all that the placed components ask for nothing is lost, though each definition is
written once; but a circuit that goes by the name of a primitive may stand in its place.

* `Primitive.text`, `Primitive.module?` — what is written of a primitive.
* `Plan.Named` — what a handled name stands for.
* `Plan.Supplied` — with each planned circuit the primitives of its components are handled, which
  **`Plan.visit_supplied`** says of every walk.
* `Context.module_of_origins` — a planned primitive is offered as its module.
* **`Context.primitives_shared`** — what shares a name is written alike, and keeping the first of each
  name loses nothing.
-/

namespace Netscribe

/-! ## What is written of a primitive -/

/-- **What is written of a primitive** in a language. -/
structure PrimitiveText where
  /-- The directory for the files. -/
  directory : String
  interface : List String
  body : List String
  /-- What is declared where there are instances. -/
  declaration : List String

namespace Primitive

/-- **What is written of a primitive** under a name; a gate has no lines, for it has no definition. -/
def text (d : Dialect) (name : String) (p : Primitive) : PrimitiveText :=
  let definitions := (p.definition? name).toList
  { directory := p.directory
    interface := definitions.flatMap (Definition.interface d)
    body := definitions.flatMap (Definition.body d)
    declaration := declarationLines d (definitions.map fun m => ⟨m.name, m.ports⟩) }

/-- The module of a primitive that has a definition. -/
def module? (d : Dialect) (p : Primitive) : Option GeneratedModule :=
  (p.definition? p.name).map (.ofDefinition d p.directory)

end Primitive

namespace Plan

variable {ctx : Context} {p q : Plan} {path : List String} {c : Component}

/-! ## Handled names -/

/-- **A handled name stands for something**: for a planned definition, or for a primitive that is not
written. -/
def Named (ctx : Context) (p : Plan) : Prop :=
  ∀ name ∈ p.handled, (∃ o ∈ p.origins, ctx.nameOf o = name)
    ∨ ∃ primitive : Primitive, (Origin.primitive primitive).isWritten = false
      ∧ primitive.name = name

lemma named_empty : Named ctx {} :=
  fun _ h => nomatch h

lemma Step.named (h : Step ctx p q) (hp : Named ctx p) : Named ctx q := by
  cases h with
  | halt => exact hp
  | @mark primitive _ hwritten _ =>
      intro name hname
      rcases List.mem_cons.1 hname with rfl | hname
      · exact .inr ⟨primitive, hwritten, rfl⟩
      · exact hp name hname
  | add origin _ _ _ _ =>
      intro name hname
      rw [origins_add]
      rcases List.mem_cons.1 hname with rfl | hname
      · exact .inl ⟨origin, List.mem_append_right _ (List.mem_singleton_self _), rfl⟩
      · exact (hp name hname).imp (fun ⟨o, ho, hsame⟩ => ⟨o, List.mem_append_left _ ho, hsame⟩) id

/-- **Any number of steps** leaves no handled name that stands for nothing. -/
lemma Steps.named (h : Steps ctx p q) (hp : Named ctx p) : Named ctx q := by
  induction h with
  | refl => exact hp
  | tail _ hstep ih => exact hstep.named ih

/-! ## Components of planned circuits -/

/-- Components are known if the primitives they ask for are, by names that are handled. -/
def Knows (ctx : Context) (p : Plan) (cs : List Component) : Prop :=
  ∀ c ∈ cs, ∃ primitive, ctx.registry.resolve? c = some primitive ∧ primitive.name ∈ p.handled

lemma Knows.mono {cs : List Component} (h : Knows ctx p cs) (hhandled : p.handled ⊆ q.handled) :
    Knows ctx q cs := by
  intro c hc
  obtain ⟨primitive, hprimitive, hname⟩ := h c hc
  exact ⟨primitive, hprimitive, hhandled hname⟩

/-- A walk that goes on after a component has handled the name of its primitive. -/
lemma exists_handled_of_component (h : (p.component ctx path c).fault = none) :
    ∃ primitive, ctx.registry.resolve? c = some primitive
      ∧ primitive.name ∈ (p.component ctx path c).handled := by
  have hp := (component_steps ctx path p c).extends_of.running h
  cases hc : ctx.registry.resolve? c with
  | none =>
      rw [component_of_none path hp hc] at h
      cases h
  | some primitive =>
      refine ⟨primitive, rfl, ?_⟩
      rw [component_of_some hp hc]
      split
      · assumption
      · split <;> exact List.mem_cons_self

lemma knows_components {cs : List Component} (h : (cs.foldl (component ctx path) p).fault = none) :
    Knows ctx (cs.foldl (component ctx path) p) cs := by
  induction cs generalizing p with
  | nil => exact fun _ hx => nomatch hx
  | cons c cs ih =>
      have hrest := (foldl_steps (component_steps ctx path) (p.component ctx path c) cs).extends_of
      refine List.forall_mem_cons.2 ⟨?_, ih h⟩
      obtain ⟨primitive, hprimitive, hname⟩ := exists_handled_of_component (hrest.running h)
      exact ⟨primitive, hprimitive, hrest.handled hname⟩

/-- **A plan is supplied** if the components of every planned circuit are known. -/
def Supplied (ctx : Context) (p : Plan) : Prop :=
  ∀ id gated c, .circuit id gated ∈ p.origins → ctx.design.circuit? id = some c →
    Knows ctx p c.netlist.components

lemma supplied_empty : Supplied ctx {} :=
  fun _ _ _ h => nomatch h

namespace Supplied

/-- What is planned of primitives asks for nothing further. -/
lemma components (h : Supplied ctx p) (path : List String) (cs : List Component) :
    Supplied ctx (cs.foldl (component ctx path) p) := by
  obtain ⟨new, hnew, hprimitives⟩ := components_primitives ctx path p cs
  intro id gated c hmem hc
  refine (h id gated c ?_ hc).mono (foldl_steps (component_steps ctx path) p cs).extends_of.handled
  rw [origins, hnew, List.map_append] at hmem
  refine (List.mem_append.1 hmem).resolve_right fun hmem => ?_
  obtain ⟨t, ht, horigin⟩ := List.mem_map.1 hmem
  exact absurd (hprimitives t ht) (by simp [horigin, Origin.isCircuit])

/-- A circuit may be planned once its components are known. -/
lemma circuit {id : UInt32} {child : Circuit} (h : Supplied ctx p) (path : List String)
    (gated : Bool) (hchild : ctx.design.circuit? id = some child)
    (hknown : p.fault = none → Knows ctx p child.netlist.components) :
    Supplied ctx (circuit ctx path id gated child p) := by
  rw [Plan.circuit]
  split
  · exact h
  · next hnew =>
      simp only [Bool.or_eq_true, not_or, Bool.not_eq_true, isHalted_eq_false_iff] at hnew
      intro id' gated' c hmem hc
      rw [origins_add] at hmem
      refine Knows.mono (p := p) ?_ (List.subset_cons_self _ _)
      rcases List.mem_append.1 hmem with hmem | hmem
      · exact h id' gated' c hmem hc
      · obtain ⟨rfl, -⟩ := Origin.circuit.inj (List.mem_singleton.1 hmem)
        obtain rfl := Option.some.inj (hchild.symm.trans hc)
        exact hknown hnew.1

/-- An instance keeps a plan supplied, if the walk through its circuit does. -/
lemma «instance» {walk : Walk} (h : Supplied ctx p) (path : List String) (c : Component)
    (hwalk : ∀ path id gated child p, ctx.design.circuit? id = some child → Supplied ctx p →
      Supplied ctx (walk path id gated child p)) :
    Supplied ctx (p.instance ctx path walk c) :=
  instance_cases path walk c h (fun _ _ _ _ _ => h)
    fun id gated child _ hchild _ _ => hwalk _ id gated child p hchild h

end Supplied

/-- **Every walk keeps a plan supplied**: before a circuit is planned, its components are gone
through. -/
theorem visit_supplied (levels : ℕ) : ∀ (path : List String) (id : UInt32) (gated : Bool)
    (c : Circuit) (p : Plan), ctx.design.circuit? id = some c → Supplied ctx p →
      Supplied ctx (visit ctx levels path id gated c p) := by
  induction levels with
  | zero =>
      intro path id gated c p _ h
      exact h
  | succ levels ih =>
      intro path id gated c p hc h
      have hcomponents := h.components path c.netlist.components
      have hinstances : Supplied ctx (c.netlist.instances.foldl
          (Plan.instance ctx path (visit ctx levels))
          (c.netlist.components.foldl (component ctx path) p)) :=
        List.foldlRecOn _ _ hcomponents fun _ hq x _ => hq.instance path x ih
      -- what the walk goes on with forgets none of the names
      have hextends : Extends ctx (c.netlist.components.foldl (component ctx path) p)
          (c.netlist.instances.foldl (Plan.instance ctx path (visit ctx levels))
            (c.netlist.components.foldl (component ctx path) p)) :=
        (foldl_steps (instance_steps path (visit_steps levels)) _ _).extends_of
      exact hinstances.circuit path gated hc fun hfault =>
        (knows_components (hextends.running hfault)).mono hextends.handled

end Plan

/-! ## Runs -/

namespace Context

variable {σ : Type} {ctx : Context} {offer : GeneratedModule → StateM σ (Except SinkError Unit)}
  {d : Dialect} {scope : String} {s : σ} {summary : Summary} {top : Circuit}

/-- **A planned primitive is offered as its module.** -/
lemma module_of_origins (h : (ctx.run scope d offer s).1.outcome = .ok summary)
    (htop : ctx.design.topCircuit? = some top) {p : Primitive} {m : GeneratedModule}
    (hp : .primitive p ∈ (ctx.plan top).origins) (hm : p.module? d = some m) :
    m ∈ ctx.offered scope d offer s := by
  rw [run_of_top htop] at h
  obtain ⟨summaries, hok⟩ := RunReport.outcome_map_eq_ok h
  obtain ⟨-, -, hmakes⟩ := (run_course htop scope d offer s).of_ok hok
  obtain ⟨t, ht, horigin⟩ := List.mem_map.1 hp
  obtain ⟨i, hi⟩ := List.getElem?_of_mem ht
  obtain ⟨m', hm', definition, hdefinition, rfl⟩ := exists_getElem?_of_forall₂ hmakes hi
  have hplaced : (ctx.plan top).Placed :=
    Plan.visit_keeps Plan.kept_placed _ _ _ _ _ _ Plan.placed_empty
  have hmade := ((plan_tidy htop).made t ht).2
  rw [horigin] at hmade
  -- the task has the definition and the directory that make up the module
  obtain ⟨definition', hdefinition', hsucceed⟩ := Option.map_eq_some_iff.1 hmade
  rw [← hsucceed] at hdefinition
  obtain rfl := Except.ok.inj hdefinition
  rw [Primitive.module?, hdefinition', Option.map_some, Option.some.injEq] at hm
  rw [hplaced t ht, horigin] at hm'
  exact hm ▸ List.mem_of_getElem? hm'

/-- The name of a primitive that has a definition is handled for this primitive, or for a circuit. -/
lemma planned_of_handled (htop : ctx.design.topCircuit? = some top) {p : Primitive}
    (hwritten : (Origin.primitive p).isWritten = true)
    (hname : p.name ∈ (ctx.plan top).handled) :
    .primitive p ∈ (ctx.plan top).origins
      ∨ ∃ id gated, .circuit id gated ∈ (ctx.plan top).origins
        ∧ ctx.nameOf (.circuit id gated) = p.name := by
  rcases (plan_steps htop).named Plan.named_empty p.name hname with ⟨o, ho, hsame⟩ | ⟨q, hq, hsame⟩
  · cases o with
    | circuit id gated => exact .inr ⟨id, gated, ho, hsame⟩
    | primitive q =>
        obtain rfl := Primitive.name_injective hsame
        exact .inl ho
  · obtain rfl := Primitive.name_injective hsame
    cases hwritten.symm.trans hq

/-- **Primitives that share a name share a definition.**  Whatever is registered under whatever names, two
components that are named alike are both written in place or neither is, and in each language they have
the same directory, interface, body and declaration.  So it is enough to write the first of each name.
After a run that succeeds no two modules have one name, and for every component of a circuit that was
written, the module of its primitive was offered, unless a circuit was written under that name. -/
theorem primitives_shared (ctx : Context) (scope : String) (d : Dialect)
    (offer : GeneratedModule → StateM σ (Except SinkError Unit)) (s : σ) :
    (∀ (c c' : Component) (p p' : Primitive) (name : String),
      ctx.registry.resolve? c = some p → ctx.registry.resolve? c' = some p' →
      ctx.registry.definitionName? c = some name → ctx.registry.definitionName? c' = some name →
        p.isInlined = p'.isInlined ∧ ∀ d, p.text d name = p'.text d name)
    ∧ ∀ summary, (ctx.run scope d offer s).1.outcome = .ok summary →
      ∃ top, ctx.design.topCircuit? = some top
        ∧ ((ctx.offered scope d offer s).map GeneratedModule.name).Nodup
        ∧ ∀ id gated circuit, .circuit id gated ∈ (ctx.plan top).origins →
          ctx.design.circuit? id = some circuit → ∀ c ∈ circuit.netlist.components,
            ∃ p, ctx.registry.resolve? c = some p ∧ ∀ m, p.module? d = some m →
              m ∈ ctx.offered scope d offer s
              ∨ ∃ id' gated', .circuit id' gated' ∈ (ctx.plan top).origins
                ∧ ctx.nameOf (.circuit id' gated') = p.name := by
  constructor
  · intro c c' p p' name hp hp' hname hname'
    obtain rfl := Registry.primitive_eq_of_definitionName? hp hp' (hname.trans hname'.symm)
    exact ⟨rfl, fun _ => rfl⟩
  · intro summary h
    obtain ⟨top, htop, -, hoffered⟩ := run_offers h
    refine ⟨top, htop, ?_, fun id gated circuit hplanned hcircuit c hc => ?_⟩
    · rw [map_name_of_makes hoffered, Plan.origins, List.map_map]
      exact (plan_tidy htop).nodup
    · obtain ⟨p, hp, hname⟩ := Plan.visit_supplied _ _ _ _ _ _ htop Plan.supplied_empty id gated
        circuit hplanned hcircuit c hc
      refine ⟨p, hp, fun m hm => ?_⟩
      have hwritten : (Origin.primitive p).isWritten = true := by
        rw [← Bool.not_eq_false, ← Primitive.definition?_eq_none_iff p.name]
        intro hnone
        rw [Primitive.module?, hnone] at hm
        cases hm
      refine (planned_of_handled htop hwritten hname).imp_left fun hplanned => ?_
      exact module_of_origins h htop hplanned hm

/-- A design in which multiplexers of one width are asked for under two names, one of which was that of a
gate, and with different attributes. -/
def renamed : Context where
  design := {
    circuits := #[
      { name := "leaf", netlist := { components := [inLeaf] } },
      { name := "main", netlist := {
          components := [inMain], instances := [{ kind := .instance 0 false }] } }]
    top := 1 }
  registry := (Registry.builtins.register "AND" .multiplexer).register "Selector" .multiplexer
where
  terminals : List Terminal :=
    [.unconnected .output 4, .unconnected .input 4, .unconnected .input 4, .unconnected .input 1]
  attributes : Attributes := Dictionary.empty.insert "width" (.int 4)
  inLeaf : Component := { kind := .primitive "AND" attributes, terminals }
  inMain : Component :=
    { kind := .primitive "Selector" (attributes.insert "delay" (.bool true)), terminals }

/-- Both have the same text, and one module is offered for them. -/
theorem primitives_shared_renamed :
    let offered := renamed.offered "" .vhdl takeAll ()
    (∃ p p', renamed.registry.resolve? renamed.inLeaf = some p
      ∧ renamed.registry.resolve? renamed.inMain = some p'
      ∧ renamed.registry.definitionName? renamed.inLeaf = some "Multiplexer_4"
      ∧ renamed.registry.definitionName? renamed.inMain = some "Multiplexer_4"
      ∧ p.isInlined = p'.isInlined
      ∧ ∀ d, p.text d "Multiplexer_4" = p'.text d "Multiplexer_4")
    ∧ (∃ summary, (renamed.run "" .vhdl takeAll ()).1.outcome = .ok summary)
    ∧ offered.map GeneratedModule.name = ["Multiplexer_4", "leaf", "main"]
    ∧ ∃ m, (Primitive.multiplexer 4).module? .vhdl = some m ∧ m ∈ offered := by
  intro offered
  have hleaf : renamed.registry.resolve? renamed.inLeaf = some (.multiplexer 4) := by decide
  have hmain : renamed.registry.resolve? renamed.inMain = some (.multiplexer 4) := by decide
  have hname : renamed.registry.definitionName? renamed.inLeaf = some "Multiplexer_4" := by decide
  have hname' : renamed.registry.definitionName? renamed.inMain = some "Multiplexer_4" := by decide
  obtain ⟨summary, hrun⟩ :
      ∃ summary, (renamed.run "" .vhdl takeAll ()).1.outcome = .ok summary := ⟨_, rfl⟩
  obtain ⟨halike, hlossless⟩ := primitives_shared renamed "" .vhdl takeAll ()
  obtain ⟨top, htop, -, hmodules⟩ := hlossless summary hrun
  obtain rfl : renamed.design.circuits[1] = top := Option.some.inj htop
  have horigins : (renamed.plan renamed.design.circuits[1]).origins
      = [.primitive (.multiplexer 4), .circuit 0 false, .circuit 1 false] := rfl
  obtain ⟨p, hp, hoffered⟩ := hmodules 0 false renamed.design.circuits[0]
    (by rw [horigins]; simp) rfl renamed.inLeaf (List.mem_singleton_self _)
  obtain rfl := Option.some.inj (hleaf.symm.trans hp)
  refine ⟨⟨_, _, hleaf, hmain, hname, hname', ?_⟩, ⟨summary, hrun⟩, rfl, _, rfl, ?_⟩
  · exact halike _ _ _ _ _ hleaf hmain hname hname'
  · -- none of the circuits that are written goes by that name
    refine (hoffered _ rfl).resolve_right ?_
    rintro ⟨id, gated, hplanned, hsame⟩
    rw [horigins] at hplanned
    simp only [List.mem_cons, reduceCtorEq, Origin.circuit.injEq, List.not_mem_nil, or_false,
      false_or] at hplanned
    rcases hplanned with ⟨rfl, rfl⟩ | ⟨rfl, rfl⟩
    · exact absurd hsame (by decide)
    · exact absurd hsame (by decide)

end Context

end Netscribe
