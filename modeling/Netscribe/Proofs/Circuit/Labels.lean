import Netscribe.Proofs.Circuit.Components

/-!
# Labels of instances

An instance is labelled by its definition and a number.  Placed components are numbered one after the
other, those that are written into the body left out, and instances of circuits by their places.  The
number is what comes after the last underscore, so a label tells both, whatever the definitions are
called.

* `Names.instanceLabel_inj` — a label tells the definition and the number.
* `placedUnder` — the instances in a section of a body.
* `Context.componentNumbers`, `Context.instanceNumbers` — the numbers that are given.
* `Context.placed_sections` — the instances of a body have these numbers.
* **`Context.labels_nodup`** — which labels are different.
-/

namespace Netscribe

open Attempt

/-! ## Labels -/

/-- **A label tells the definition and the number**, also where the definition itself is called like
a label. -/
lemma Names.instanceLabel_inj {a b : String} {m n : ℕ}
    (h : instanceLabel a m = instanceLabel b n) : a = b ∧ m = n := by
  -- read from the end, the number goes on up to the underscore
  have hreverse := congrArg (fun s : String => s.toList.reverse) h
  simp only [instanceLabel, String.toList_append, List.reverse_append, Nat.toString_eq_repr,
    Nat.toList_repr] at hreverse
  have hdigits : ∀ n : ℕ, ∀ c ∈ (Nat.toDigits 10 n).reverse, c.isDigit = true :=
    fun n c hc => IsWord.isDigit_of_mem (List.mem_reverse.1 hc)
  have hunderscore : ∀ rest, ∀ c ∈ ("_".toList.reverse ++ rest).head?, c.isDigit = false := by
    rintro rest c ⟨⟩
    decide
  obtain ⟨hnumber, hname⟩ := append_inj_of_boundary (p := Char.isDigit) (hdigits m) (hdigits n)
    (hunderscore _) (hunderscore _) hreverse
  constructor
  · exact String.toList_inj.1 (List.reverse_injective (List.append_cancel_left hname))
  · refine Nat.repr_injective ?_
    rw [Nat.repr_eq_ofList_toDigits, Nat.repr_eq_ofList_toDigits, List.reverse_injective hnumber]

/-- A definition and a number, and the label they make. -/
def numbered (n : String × ℕ) : String × String :=
  (n.1, Names.instanceLabel n.1 n.2)

lemma numbered_snd_inj {m n : String × ℕ} (h : (numbered m).2 = (numbered n).2) : m = n := by
  obtain ⟨hname, hnumber⟩ := Names.instanceLabel_inj h
  exact Prod.ext hname hnumber

/-! ## Instances in a section -/

/-- The definition and the label, if a statement is an instance. -/
def Statement.placed? : Statement → Option (String × String)
  | .assign _ => none
  | .instance definition label _ => some (definition, label)

/-- **The instances under a title**, each with its definition and its label. -/
def placedUnder (title : String) (sections : List Section) : List (String × String) :=
  ((sections.filter fun s => s.title == some title).flatMap Section.statements).filterMap
    Statement.placed?

lemma placedUnder_append (title : String) (sections sections' : List Section) :
    placedUnder title (sections ++ sections')
      = placedUnder title sections ++ placedUnder title sections' := by
  simp [placedUnder]

lemma placedUnder_titled (title title' : String) (statements : List Statement) :
    placedUnder title (Section.titled title' statements)
      = if title' = title then statements.filterMap Statement.placed? else [] := by
  cases statements with
  | nil => simp [placedUnder, Section.titled]
  | cons statement statements =>
      by_cases h : title' = title <;> simp [placedUnder, Section.titled, h]

namespace Context

variable {ctx : Context} {nl : Netlist} {sections : List Section}

/-! ## Numbers -/

/-- **The placed components**, each with the name of its definition and its number. -/
def componentNumbers (ctx : Context) (nl : Netlist) : List (String × ℕ) :=
  (nl.components.flatMap ctx.primitiveNames).zipIdx 1

/-- **The instances of circuits**, each with the name of its definition and its number. -/
def instanceNumbers (ctx : Context) (nl : Netlist) : List (String × ℕ) :=
  nl.instances.zipIdx.flatMap fun (c, index) => (ctx.instanceNames c).map (·, index + 1)

/-- What is written in place holds no instance, and the placed components are numbered from `j` on. -/
lemma placed_placeComponents {cs : List Component} {i j : ℕ}
    {placed : List Statement × List Statement}
    (h : (ctx.placeComponents nl i j cs).outcome = .ok placed) :
    placed.1.filterMap Statement.placed? = []
      ∧ placed.2.filterMap Statement.placed?
        = ((cs.flatMap ctx.primitiveNames).zipIdx j).map numbered := by
  induction cs generalizing i j placed with
  | nil =>
      obtain rfl : ([], []) = placed := Except.ok.inj h
      exact ⟨rfl, rfl⟩
  | cons c cs ih =>
      obtain ⟨p, hp, h⟩ := placeComponents_cons_eq_ok_iff.1 h
      rw [List.flatMap_cons, primitiveNames, hp]
      cases p with
      | gate g =>
          obtain ⟨here, rest, -, hrest, rfl⟩ := h
          obtain ⟨hinlined, hplaced⟩ := ih hrest
          refine ⟨?_, hplaced⟩
          rw [List.filterMap_append, hinlined, List.append_nil, List.filterMap_map]
          exact List.filterMap_eq_nil_iff.2 fun _ _ => rfl
      | multiplexer width =>
          obtain ⟨here, rest, hhere, hrest, rfl⟩ := h
          obtain ⟨hinlined, hplaced⟩ := ih hrest
          obtain ⟨bindings, -, hhere⟩ := outcome_bind_eq_ok_iff.1 hhere
          obtain rfl := Except.ok.inj hhere
          exact ⟨hinlined, congrArg (_ :: ·) hplaced⟩

lemma placed_of_places {c : Component × ℕ} {statements : List Statement}
    (h : ctx.Places nl c statements) :
    (ctx.instanceNames c.1).map (fun name => numbered (name, c.2 + 1))
      = statements.filterMap Statement.placed? := by
  rw [Places] at h
  rw [instanceNames]
  cases htarget : c.1.target? with
  | none =>
      rw [htarget] at h
      subst h
      rfl
  | some target =>
      obtain ⟨id, gated⟩ := target
      rw [htarget] at h
      obtain ⟨circuit, statement, hcircuit, hstatement, rfl⟩ := h
      obtain ⟨bindings, -, rfl⟩ := circuitInstance_eq_ok_iff.1 hstatement
      dsimp only
      rw [Option.toList_some, List.flatMap_singleton, hcircuit]
      rfl

lemma placed_placeInstances {statements : List Statement}
    (h : (ctx.placeInstances nl).outcome = .ok statements) :
    statements.filterMap Statement.placed? = (ctx.instanceNumbers nl).map numbered := by
  obtain ⟨each, hall, rfl⟩ := placeInstances_eq_ok_iff.1 h
  have hmap := map_eq_map_of_forall₂ (hall.imp fun c statements hc => placed_of_places hc)
  rw [List.filterMap_flatten, ← hmap, instanceNumbers, List.map_flatMap, List.flatMap_def]
  simp only [List.map_map, Function.comp_def]

/-- **The instances of a body** have these numbers, and there are no others. -/
lemma placed_sections (h : (ctx.sections nl).outcome = .ok sections) :
    placedUnder "Here all normal components are defined" sections
        = (ctx.componentNumbers nl).map numbered
      ∧ placedUnder "Here all sub-circuits are defined" sections
        = (ctx.instanceNumbers nl).map numbered
      ∧ (sections.flatMap Section.statements).filterMap Statement.placed?
        = (ctx.componentNumbers nl ++ ctx.instanceNumbers nl).map numbered := by
  obtain ⟨clocks, inputs, outputs, inouts, placed, instances, -, -, -, -, hplaced, hinstances, rfl⟩ :=
    sections_eq_ok_iff.1 h
  obtain ⟨hinlined, hplaced⟩ := placed_placeComponents hplaced
  rw [List.map_append, componentNumbers, ← hplaced, ← placed_placeInstances hinstances]
  have hassign : ∀ assignments : List Assignment,
      (assignments.map Statement.assign).filterMap Statement.placed? = [] := by
    intro assignments
    rw [List.filterMap_map]
    exact List.filterMap_eq_nil_iff.2 fun _ _ => rfl
  refine ⟨?_, ?_, ?_⟩
  · simp [placedUnder_append, placedUnder_titled, assignmentSection]
  · simp [placedUnder_append, placedUnder_titled, assignmentSection]
  · simp only [List.flatMap_append, assignmentSection, Netlist.statements_titled,
      List.filterMap_append, hassign, hinlined, List.nil_append]

/-! ## Different numbers -/

lemma componentNumbers_nodup (ctx : Context) (nl : Netlist) : (ctx.componentNumbers nl).Nodup := by
  refine List.Nodup.of_map Prod.snd ?_
  rw [componentNumbers, List.zipIdx_map_snd]
  exact List.nodup_range'

/-- An instance stands for one circuit at most. -/
lemma instanceNames_nodup (ctx : Context) (c : Component) : (ctx.instanceNames c).Nodup := by
  rw [instanceNames]
  cases c.target? with
  | none => exact List.nodup_nil
  | some target =>
      obtain ⟨id, gated⟩ := target
      rw [Option.toList_some, List.flatMap_singleton]
      dsimp only
      cases ctx.design.circuit? id with
      | none => exact List.nodup_nil
      | some circuit => exact List.nodup_singleton _

lemma instanceNumbers_nodup (ctx : Context) (nl : Netlist) : (ctx.instanceNumbers nl).Nodup := by
  have hplaces : (nl.instances.zipIdx.map Prod.snd).Nodup := by
    rw [List.zipIdx_map_snd]
    exact List.nodup_range'
  rw [instanceNumbers, List.nodup_flatMap]
  constructor
  · exact fun c _ => (ctx.instanceNames_nodup c.1).map fun _ _ h => congrArg Prod.fst h
  · refine (List.pairwise_map.1 hplaces).imp fun {c c'} hne n hn hn' => hne ?_
    obtain ⟨_, -, rfl⟩ := List.mem_map.1 hn
    obtain ⟨_, -, h⟩ := List.mem_map.1 hn'
    exact (Nat.succ.inj (congrArg Prod.snd h)).symm

/-- Different numbers make different labels. -/
lemma labels_of_nodup {numbers : List (String × ℕ)} (h : numbers.Nodup) :
    ((numbers.map numbered).map Prod.snd).Nodup := by
  rw [List.map_map]
  exact h.map fun _ _ => numbered_snd_inj

/-- **Instances of one kind have different labels**, whatever their definitions are called, and also
where these are called like labels.  The placed components are numbered from one, and an instance of a
circuit has the number of its place; there are no other instances.  A placed component is labelled as
an instance of a circuit is only if both have the same definition and the same number. -/
theorem labels_nodup (h : (ctx.sections nl).outcome = .ok sections) :
    let components := placedUnder "Here all normal components are defined" sections
    let circuits := placedUnder "Here all sub-circuits are defined" sections
    (components.map Prod.snd).Nodup ∧ (circuits.map Prod.snd).Nodup
      ∧ components = (ctx.componentNumbers nl).map numbered
      ∧ circuits = (ctx.instanceNumbers nl).map numbered
      ∧ (∀ m ∈ ctx.componentNumbers nl, ∀ n ∈ ctx.instanceNumbers nl,
        (numbered m).2 = (numbered n).2 ↔ m = n)
      ∧ (sections.flatMap Section.statements).filterMap Statement.placed?
        = components ++ circuits := by
  intro components circuits
  obtain ⟨hcomponents, hcircuits, hall⟩ := placed_sections h
  refine ⟨?_, ?_, hcomponents, hcircuits, fun m _ n _ => ⟨numbered_snd_inj, ?_⟩, ?_⟩
  · show ((placedUnder _ sections).map Prod.snd).Nodup
    rw [hcomponents]
    exact labels_of_nodup (ctx.componentNumbers_nodup nl)
  · show ((placedUnder _ sections).map Prod.snd).Nodup
    rw [hcircuits]
    exact labels_of_nodup (ctx.instanceNumbers_nodup nl)
  · rintro rfl
    rfl
  · rw [hall, List.map_append, ← hcomponents, ← hcircuits]

/-- Circuits that are called as labels of each other, and as a multiplexer and its labels. -/
theorem labels_nodup_namedAsLabels :
    let ctx : Context :=
      { design := {
          circuits := #[{ name := "a" }, { name := "a_1" }, { name := "a_1_1" },
            { name := "Multiplexer_1" }, { name := "Multiplexer_1_1" }] } }
    let multiplexer : Component :=
      { kind := .primitive "Multiplexer" .empty
        terminals := [.unconnected .output 1, .unconnected .input 1, .unconnected .input 1,
          .unconnected .input 1] }
    let nl : Netlist :=
      { components := [multiplexer, multiplexer]
        instances := [{ kind := .instance 3 false }, { kind := .instance 2 false },
          { kind := .instance 1 false }, { kind := .instance 0 false }, { kind := .instance 4 false }] }
    ∃ sections, (ctx.sections nl).outcome = .ok sections
      ∧ placedUnder "Here all normal components are defined" sections
        = [("Multiplexer_1", "Multiplexer_1_1"), ("Multiplexer_1", "Multiplexer_1_2")]
      ∧ placedUnder "Here all sub-circuits are defined" sections
        = [("Multiplexer_1", "Multiplexer_1_1"), ("a_1_1", "a_1_1_2"), ("a_1", "a_1_3"), ("a", "a_4"),
          ("Multiplexer_1_1", "Multiplexer_1_1_5")]
      ∧ ((placedUnder "Here all sub-circuits are defined" sections).map Prod.snd).Nodup := by
  intro ctx multiplexer nl
  obtain ⟨-, hcircuits, -⟩ := @labels_nodup ctx nl _ rfl
  exact ⟨_, rfl, by decide, by decide, hcircuits⟩

end Context

end Netscribe
