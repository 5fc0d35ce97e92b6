import Netscribe.Proofs.Circuit.Interface
import Netscribe.Proofs.Circuit.References
import Netscribe.Proofs.Hdl.Headers

/-!
# Declared components are those that are instantiated

A VHDL body declares each definition that it instantiates.  The declarations and the instances are
made by two passes over a netlist: the first looks at what a component or an instance stands for and
keeps the first of each name, the second places and numbers them.  Both come down to the same list of
names, one for each placed component and one for each instance of a circuit.

* `Context.primitiveNames`, `Context.instanceNames` — what a component, or an instance, stands for.
* `Context.names_declarations` — the declared names are these, each once.
* `Context.definitions_sections` — the instantiated names are these.
* `Section.isPlaced` — the sections of placed components and of instances.
* **`Context.declared_iff_instantiated`** — no name is declared twice, and a name is declared exactly if
  it is instantiated.
-/

namespace Netscribe

open Attempt

namespace Context

variable {ctx : Context} {nl : Netlist} {c : Component}

/-- The name of the definition that a component is placed as; none for one that is written into the
body. -/
def primitiveNames (ctx : Context) (c : Component) : List String :=
  (ctx.registry.resolve? c).toList.flatMap fun p =>
    (p.definition? p.name).toList.map Definition.name

/-- The name of the circuit that an instance stands for, gated or not. -/
def instanceNames (ctx : Context) (c : Component) : List String :=
  c.target?.toList.flatMap fun (id, gated) =>
    (ctx.design.circuit? id).toList.map fun circuit => Names.definition circuit.name gated

/-- **The names that a netlist instantiates**, one for each time. -/
def usedNames (ctx : Context) (nl : Netlist) : List String :=
  nl.components.flatMap ctx.primitiveNames ++ nl.instances.flatMap ctx.instanceNames

/-! ## Declarations -/

lemma names_primitiveDeclaration {declarations : List Declaration}
    (h : (ctx.primitiveDeclaration c).outcome = .ok declarations) :
    declarations.map Declaration.name = ctx.primitiveNames c := by
  obtain ⟨p, hp, h⟩ := outcome_bind_eq_ok_iff.1 h
  obtain rfl := Except.ok.inj h
  rw [primitiveNames, resolve_eq_ok_iff.1 hp, List.map_map]
  simp

lemma names_instanceDeclaration {declarations : List Declaration}
    (h : (ctx.instanceDeclaration c).outcome = .ok declarations) :
    declarations.map Declaration.name = ctx.instanceNames c := by
  obtain ⟨target, htarget, h⟩ := outcome_bind_eq_ok_iff.1 h
  have htarget := target_eq_ok_iff.1 htarget
  rw [instanceNames]
  cases hc : c.target? with
  | none =>
      rw [hc] at htarget
      subst htarget
      obtain rfl := Except.ok.inj h
      rfl
  | some target =>
      rw [hc] at htarget
      obtain ⟨circuit, hcircuit, rfl⟩ := htarget
      obtain rfl := Except.ok.inj h
      simp [hcircuit]

lemma names_firstPerName (declarations : List Declaration) :
    (firstPerName declarations).map Declaration.name
      = (declarations.map Declaration.name).eraseDups := by
  rw [firstPerName]
  -- the fold keeps what it has seen in reverse
  suffices h : (declarations.foldl (fun kept c =>
      if kept.any fun k => k.name == c.name then kept else c :: kept) []).map Declaration.name
      = (declarations.map Declaration.name).eraseDups.reverse by
    rw [List.map_reverse, h, List.reverse_reverse]
  induction declarations using List.reverseRecOn with
  | nil => rfl
  | append_singleton declarations c ih =>
      rw [List.foldl_append, List.foldl_cons, List.foldl_nil, List.map_append, List.map_singleton,
        eraseDups_concat]
      generalize declarations.foldl _ [] = kept at ih ⊢
      have hany : (kept.any fun k => k.name == c.name) = true
          ↔ c.name ∈ declarations.map Declaration.name := by
        rw [← List.mem_eraseDups, ← List.mem_reverse, ← ih, List.any_eq_true, List.mem_map]
        simp only [beq_iff_eq]
      by_cases hc : c.name ∈ declarations.map Declaration.name
      · rw [if_pos (hany.2 hc), if_pos hc, ih]
      · rw [if_neg (mt hany.1 hc), if_neg hc, List.map_cons, ih, List.reverse_append]
        rfl

/-- What is declared for several components has the names that they stand for. -/
lemma names_mapM {names : Component → List String} {each : Component → Attempt (List Declaration)}
    {cs : List Component} {declarations : List (List Declaration)}
    (hnames : ∀ {c ds}, (each c).outcome = .ok ds → ds.map Declaration.name = names c)
    (h : (cs.mapM each).outcome = .ok declarations) :
    declarations.flatten.map Declaration.name = cs.flatMap names := by
  have hall := (outcome_mapM_eq_ok_iff.1 h).imp fun c ds hc => (hnames hc).symm
  rw [List.map_flatten, ← map_eq_map_of_forall₂ hall, List.flatMap_def]

/-- **The declared names** are those that the netlist instantiates, each once. -/
lemma names_declarations {declarations : List Declaration}
    (h : (ctx.declarations nl).outcome = .ok declarations) :
    declarations.map Declaration.name = (ctx.usedNames nl).eraseDups := by
  obtain ⟨primitives, hprimitives, h⟩ := outcome_bind_eq_ok_iff.1 h
  obtain ⟨instances, hinstances, h⟩ := outcome_bind_eq_ok_iff.1 h
  obtain rfl := Except.ok.inj h
  rw [names_firstPerName, List.map_append, names_mapM names_primitiveDeclaration hprimitives,
    names_mapM names_instanceDeclaration hinstances, usedNames]

/-! ## Instances -/

lemma isLegible_instance {definition : String} {bindings : List (String × Binding)} (id : ℕ)
    (h : IsWord definition) :
    (Statement.instance definition (Names.instanceLabel definition id) bindings).IsLegible := by
  refine ⟨h, (h.append (by decide)).append (IsWord.natural id), fun hempty => ?_⟩
  have hlength := congrArg String.length hempty
  simp [Names.instanceLabel] at hlength

lemma isWord_definition (circuit : String) (gated : Bool) :
    IsWord (Names.definition circuit gated) := by
  refine (IsWord.ofLabel circuit).append ?_
  cases gated <;> decide

/-- What is written in place instantiates nothing, and what is placed has the names that components
stand for. -/
lemma definitions_placeComponents {cs : List Component} {i j : ℕ}
    {placed : List Statement × List Statement}
    (h : (ctx.placeComponents nl i j cs).outcome = .ok placed) :
    placed.1.flatMap Statement.definitions = []
      ∧ placed.2.flatMap Statement.definitions = cs.flatMap ctx.primitiveNames
      ∧ ∀ s ∈ placed.2, s.IsLegible := by
  induction cs generalizing i j placed with
  | nil =>
      obtain rfl : ([], []) = placed := Except.ok.inj h
      exact ⟨rfl, rfl, by simp⟩
  | cons c cs ih =>
      obtain ⟨p, hp, h⟩ := placeComponents_cons_eq_ok_iff.1 h
      rw [List.flatMap_cons, primitiveNames, hp]
      cases p with
      | gate g =>
          obtain ⟨here, rest, -, hrest, rfl⟩ := h
          obtain ⟨hinlined, hplaced, hlegible⟩ := ih hrest
          refine ⟨?_, hplaced, hlegible⟩
          simp [hinlined, List.flatMap_map, Statement.definitions]
      | multiplexer width =>
          obtain ⟨here, rest, hhere, hrest, rfl⟩ := h
          obtain ⟨hinlined, hplaced, hlegible⟩ := ih hrest
          obtain ⟨bindings, -, hhere⟩ := outcome_bind_eq_ok_iff.1 hhere
          obtain rfl := Except.ok.inj hhere
          have hword : IsWord (Multiplexer.name width.toNat) :=
            IsWord.append (by decide) (IsWord.natural _)
          refine ⟨hinlined, ?_, List.forall_mem_cons.2 ⟨isLegible_instance j hword, hlegible⟩⟩
          rw [List.flatMap_append, hplaced]
          rfl

lemma definitions_of_places {c : Component × ℕ} {statements : List Statement}
    (h : ctx.Places nl c statements) :
    ctx.instanceNames c.1 = statements.flatMap Statement.definitions
      ∧ ∀ s ∈ statements, s.IsLegible := by
  rw [Places] at h
  rw [instanceNames]
  cases htarget : c.1.target? with
  | none =>
      rw [htarget] at h
      subst h
      exact ⟨rfl, by simp⟩
  | some target =>
      obtain ⟨id, gated⟩ := target
      rw [htarget] at h
      obtain ⟨circuit, statement, hcircuit, hstatement, rfl⟩ := h
      obtain ⟨bindings, -, rfl⟩ := circuitInstance_eq_ok_iff.1 hstatement
      refine ⟨?_, List.forall_mem_singleton.2 (isLegible_instance _ (isWord_definition _ _))⟩
      dsimp only
      rw [Option.toList_some, List.flatMap_singleton, hcircuit]
      rfl

lemma definitions_placeInstances {statements : List Statement}
    (h : (ctx.placeInstances nl).outcome = .ok statements) :
    statements.flatMap Statement.definitions = nl.instances.flatMap ctx.instanceNames
      ∧ ∀ s ∈ statements, s.IsLegible := by
  obtain ⟨each, hall, rfl⟩ := placeInstances_eq_ok_iff.1 h
  constructor
  · have hmap := map_eq_map_of_forall₂ (hall.imp fun c statements hc => (definitions_of_places hc).1)
    have hfst : nl.instances.zipIdx.map (fun c => ctx.instanceNames c.1)
        = nl.instances.map ctx.instanceNames := by
      rw [← Function.comp_def, ← List.map_map, List.zipIdx_map_fst]
    rw [List.flatMap_def, List.map_flatten, List.flatten_flatten, List.map_map, List.flatMap_def]
    exact congrArg List.flatten (hmap.symm.trans hfst)
  · intro s hs
    obtain ⟨statements, hmem, hs⟩ := List.mem_flatten.1 hs
    obtain ⟨c, -, hc⟩ := exists_mem_of_forall₂ hall hmem
    exact (definitions_of_places hc).2 s hs

end Context

/-! ## Sections -/

/-- The titles under which definitions are instantiated. -/
def placedTitles : List String :=
  ["Here all normal components are defined", "Here all sub-circuits are defined"]

/-- **A section of placed components or of instances.** -/
def Section.isPlaced (s : Section) : Bool :=
  s.title.any placedTitles.contains

lemma Section.filter_titled (title : String) (statements : List Statement) :
    (titled title statements).filter isPlaced
      = if placedTitles.contains title then titled title statements else [] := by
  cases statements with
  | nil => simp [titled]
  | cons statement statements => simp [titled, isPlaced, List.filter_cons]

/-- What a body refers to is a word. -/
lemma Netlist.InScope.isWord {nl : Netlist} {r : Ref} (h : nl.InScope r) : IsWord r.name := by
  have hsignal : ∀ {name width}, ⟨name, width⟩ ∈ nl.signals → IsWord name := by
    intro name width hmem
    rcases List.mem_append.1 hmem with hmem | hmem
    · obtain ⟨b, -, ⟨⟩⟩ := List.mem_map.1 hmem
      exact Names.isWord_net b.2
    · obtain ⟨b, -, ⟨⟩⟩ := List.mem_map.1 hmem
      exact Names.isWord_bus b.2
  cases h with
  | signal hdeclared =>
      cases hdeclared with
      | wire hmem | bit hmem | range hmem => exact hsignal hmem
  | pin hname => exact isWord_of_mem_pinNames hname
  | shared hshared =>
      rcases hshared with ⟨tree, hname⟩ | hname
      · rw [hname]
        exact isWord_clockTree tree
      · revert hname
        generalize r.name = name
        revert name
        decide

namespace Context

variable {ctx : Context} {nl : Netlist} {sections : List Section}

/-- The names of all statements of a body are words. -/
lemma isLegible_sections (h : (ctx.sections nl).outcome = .ok sections) :
    ∀ s ∈ sections.flatMap Section.statements, s.IsLegible := by
  intro s hs
  cases s with
  | assign a => exact (Netlist.scoped_sections h _ hs _ List.mem_cons_self).isWord
  | «instance» definition label bindings =>
      obtain ⟨clocks, inputs, outputs, inouts, placed, instances, -, -, -, -, hplaced, hinstances,
        rfl⟩ := sections_eq_ok_iff.1 h
      obtain ⟨hinlined, -, hplaced⟩ := definitions_placeComponents hplaced
      have hassign : ∀ assignments : List Assignment,
          Statement.instance definition label bindings ∉ assignments.map .assign := by
        intro assignments hmem
        obtain ⟨a, -, ha⟩ := List.mem_map.1 hmem
        cases ha
      have hinlined : Statement.instance definition label bindings ∉ placed.1 := fun hmem => by
        have := List.flatMap_eq_nil_iff.1 hinlined _ hmem
        cases this
      simp only [List.flatMap_append, assignmentSection, Netlist.statements_titled, List.mem_append,
        hassign, hinlined, false_or] at hs
      rcases hs with hs | hs
      · exact hplaced _ hs
      · exact (definitions_placeInstances hinstances).2 _ hs

/-- What a body instantiates is all in the sections of placed components and of instances. -/
lemma definitions_sections (h : (ctx.sections nl).outcome = .ok sections) :
    (sections.flatMap Section.statements).flatMap Statement.definitions = ctx.usedNames nl
      ∧ ((sections.filter Section.isPlaced).flatMap Section.statements).flatMap
          Statement.definitions = ctx.usedNames nl := by
  obtain ⟨clocks, inputs, outputs, inouts, placed, instances, -, -, -, -, hplaced, hinstances, rfl⟩ :=
    sections_eq_ok_iff.1 h
  obtain ⟨hinlined, hplaced, -⟩ := definitions_placeComponents hplaced
  obtain ⟨hinstances, -⟩ := definitions_placeInstances hinstances
  have hassign : ∀ assignments : List Assignment,
      (assignments.map Statement.assign).flatMap Statement.definitions = [] := by
    intro assignments
    rw [List.flatMap_map]
    exact List.flatMap_eq_nil_iff.2 fun _ _ => rfl
  constructor
  · simp only [List.flatMap_append, assignmentSection, Netlist.statements_titled, hassign, hinlined,
      hplaced, hinstances, List.nil_append, usedNames]
  · simp [List.flatMap_append, assignmentSection, Section.filter_titled, placedTitles,
      Netlist.statements_titled, hplaced, hinstances, usedNames]

/-- **A name is declared exactly if it is instantiated**, and no name is declared twice.  Both are read
off the text: declared names off the lines of the component declarations, and instantiated names off
the sections of placed components and of instances.  No other section instantiates anything, and there
is one instance for each component that is placed and for each circuit that is asked for. -/
theorem declared_iff_instantiated {declarations : List Declaration}
    (hdeclarations : (ctx.declarations nl).outcome = .ok declarations)
    (hsections : (ctx.sections nl).outcome = .ok sections) :
    let declared := (declarationLines .vhdl declarations).filterMap componentName?
    let instantiated :=
      ((sections.filter Section.isPlaced).flatMap (Section.lines .vhdl)).filterMap instanceName?
    declared.Nodup ∧ (∀ name, name ∈ declared ↔ name ∈ instantiated)
      ∧ (functionalityLines .vhdl sections).filterMap instanceName? = instantiated
      ∧ instantiated = ctx.usedNames nl := by
  intro declared instantiated
  obtain ⟨hall, hplaced⟩ := definitions_sections hsections
  have hlegible := isLegible_sections hsections
  have hdeclared : declared = (ctx.usedNames nl).eraseDups := by
    rw [← names_declarations hdeclarations]
    exact names_declarationLines declarations
  have hinstantiated : instantiated = ctx.usedNames nl := by
    rw [← hplaced]
    refine names_flatMap_lines fun s hs => hlegible s ?_
    obtain ⟨placed, hmem, hs⟩ := List.mem_flatMap.1 hs
    exact List.mem_flatMap.2 ⟨placed, List.mem_of_mem_filter hmem, hs⟩
  refine ⟨?_, fun name => ?_, ?_, hinstantiated⟩
  · rw [hdeclared]
    exact nodup_eraseDups _
  · rw [hdeclared, hinstantiated, List.mem_eraseDups]
  · rw [functionalityLines, List.filterMap_append, names_flatMap_lines hlegible, hall, hinstantiated]
    exact List.append_nil _

/-- A circuit that is called as a multiplexer is: between them they are declared once.  The other is
there in both variants. -/
theorem declared_iff_instantiated_namedAlike :
    let ctx : Context :=
      { design := { circuits := #[{ name := "Multiplexer 1" }, { name := "counter" }] } }
    let multiplexer : Component :=
      { kind := .primitive "Multiplexer" .empty
        terminals := [.unconnected .output 1, .unconnected .input 1, .unconnected .input 1,
          .unconnected .input 1] }
    let nl : Netlist :=
      { components := [multiplexer, multiplexer]
        instances := [{ kind := .instance 0 false }, { kind := .instance 1 false },
          { kind := .instance 1 true }] }
    ∃ declarations sections, (ctx.declarations nl).outcome = .ok declarations
      ∧ (ctx.sections nl).outcome = .ok sections
      ∧ (declarationLines .vhdl declarations).filterMap componentName?
        = ["Multiplexer_1", "counter", "counter_gated"]
      ∧ ∀ name, name ∈ (declarationLines .vhdl declarations).filterMap componentName?
        ↔ name ∈ ((sections.filter Section.isPlaced).flatMap (Section.lines .vhdl)).filterMap
            instanceName? := by
  intro ctx multiplexer nl
  exact ⟨_, _, rfl, rfl, by decide, (@declared_iff_instantiated ctx nl _ _ rfl rfl).2.1⟩

end Context

end Netscribe
