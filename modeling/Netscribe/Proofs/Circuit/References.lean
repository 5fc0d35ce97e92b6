import Netscribe.Proofs.Circuit.Naming
import Netscribe.Proofs.Circuit.Parts

/-!
# What a body refers to

A body refers to the signals it declares, to the ports that its pins make, and to the clocks and
bubble buses that pass through a circuit under one name.  A reference to the signal of a net is thus
a reference to a declared signal, and stays inside of it.

* `Statement.refs` — all references of a statement, apart from the formals of a port map.
* `Netlist.InScope` — what the references of a body may be.
* `Netlist.scoped_sections` — the references of a body are in scope.
* **`Netlist.signals_faithful`** — signals are declared once, referred to inside their width, and told
  apart by their texts.
-/

namespace Netscribe

/-! ## References of a statement -/

def Operand.refs : Operand → List Ref
  | .ref r => [r]
  | .zeros _ => []

def Expr.refs : Expr → List Ref
  | .operand o => o.refs
  | .logic _ _ operands => operands.flatMap Operand.refs
  | .choice select low high => select.refs ++ low.refs ++ high.refs

def Assignment.refs (a : Assignment) : List Ref :=
  a.target :: a.source.refs

def Actual.refs : Actual → List Ref
  | .ref r => [r]
  | _ => []

def Binding.refs : Binding → List Ref
  | .whole a => a.refs
  | .bits as => as.flatMap Actual.refs

/-- **The references of a statement.**  The formals of a port map belong to the definition that is
instantiated. -/
def Statement.refs : Statement → List Ref
  | .assign a => a.refs
  | .instance _ _ bindings => bindings.flatMap fun b => b.2.refs

/-! ## Scope -/

/-- The clocks and bubble buses, which have the same name in every circuit. -/
def Names.IsShared (name : String) : Prop :=
  (∃ tree, name = clockTree tree)
    ∨ name ∈ [globalClock, inputBubbles, outputBubbles, inoutBubbles]

namespace Netlist

variable {nl : Netlist}

/-- **What the references of a body may be.** -/
inductive InScope (nl : Netlist) (r : Ref) : Prop
  | signal : r.Declared nl.signals → InScope nl r
  /-- The port of a pin. -/
  | pin : r.name ∈ pinNames (nl.inputs ++ nl.outputs ++ nl.inouts) → InScope nl r
  | shared : Names.IsShared r.name → InScope nl r

/-- A list of statements all of whose references are in scope. -/
def Scoped (nl : Netlist) (statements : List Statement) : Prop :=
  ∀ s ∈ statements, ∀ r ∈ s.refs, nl.InScope r

lemma Scoped.nil : nl.Scoped [] := by
  intro s hs
  cases hs

lemma Scoped.append {xs ys : List Statement} (hxs : nl.Scoped xs) (hys : nl.Scoped ys) :
    nl.Scoped (xs ++ ys) := by
  intro s hs
  exact (List.mem_append.1 hs).elim (hxs s) (hys s)

lemma scoped_assign {as : List Assignment} (h : ∀ a ∈ as, ∀ r ∈ a.refs, nl.InScope r) :
    nl.Scoped (as.map .assign) := by
  intro s hs
  obtain ⟨a, ha, rfl⟩ := List.mem_map.1 hs
  exact h a ha

/-! ## Terminals -/

lemma declared_signalAt {b : Option Point} {r : Ref} (h : nl.signalAt b = some r) :
    r.Declared nl.signals := by
  obtain ⟨p, -, hp⟩ := Option.bind_eq_some_iff.1 h
  exact declared_signalOf hp

lemma refs_joinPort {mayFloat : Bool} {port signal r : Ref}
    (hr : r ∈ (joinPort mayFloat port signal).refs) : r = port ∨ r = signal := by
  cases mayFloat
  · exact (List.mem_pair.1 hr)
  · exact (List.mem_pair.1 hr).symm

lemma refs_ofZeros {port r : Ref} {width : ℕ} (hr : r ∈ (Assignment.ofZeros port width).refs) :
    r = port :=
  List.mem_singleton.1 hr

lemma refs_joinBit {mayFloat : Bool} {port : Ref} {b : Option Point} {a : Assignment}
    (ha : a ∈ joinBit mayFloat port (nl.signalAt b)) :
    ∀ r ∈ a.refs, r = port ∨ r.Declared nl.signals := by
  intro r hr
  cases hs : nl.signalAt b with
  | some signal =>
      rw [hs] at ha
      obtain rfl := List.mem_singleton.1 ha
      rcases refs_joinPort hr with rfl | rfl
      · exact .inl rfl
      · exact .inr (declared_signalAt hs)
  | none =>
      rw [hs, joinBit] at ha
      split at ha
      · cases ha
      · obtain rfl := List.mem_singleton.1 ha
        exact .inl (refs_ofZeros hr)

/-- Joined by assignments, a terminal refers to the port and to declared signals. -/
lemma refs_assignments {port : String} {mayFloat : Bool} {width : ℕ} (t : Terminal) :
    ∀ a ∈ (nl.wiresOf t).assignments port mayFloat width, ∀ r ∈ a.refs,
      r.name = port ∨ r.Declared nl.signals := by
  refine wiresOf_cases (fun b _ a ha r hr => ?_) (fun _ _ a ha r hr => ?_)
    (fun _ _ range hrange a ha r hr => ?_) (fun _ _ a ha r hr => ?_)
  · rcases refs_joinBit ha r hr with rfl | h
    · exact .inl rfl
    · exact .inr h
  · rw [Wires.assignments] at ha
    split at ha
    · cases ha
    · obtain rfl := List.mem_singleton.1 ha
      rw [refs_ofZeros hr]
      exact .inl rfl
  · obtain rfl := List.mem_singleton.1 ha
    rcases refs_joinPort hr with rfl | rfl
    · exact .inl rfl
    · exact .inr (declared_busRange hrange)
  · obtain ⟨⟨signal, i⟩, hsignal, ha⟩ := List.mem_flatMap.1 ha
    obtain ⟨b, -, rfl⟩ := List.mem_map.1 (List.fst_mem_of_mem_zipIdx hsignal)
    rcases refs_joinBit ha r hr with rfl | h
    · exact .inl rfl
    · exact .inr h

lemma refs_bitActual {mayFloat : Bool} {b : Option Point} :
    ∀ r ∈ (bitActual mayFloat (nl.signalAt b)).refs, r.Declared nl.signals := by
  intro r hr
  cases hs : nl.signalAt b with
  | some signal =>
      rw [hs] at hr
      obtain rfl := List.mem_singleton.1 hr
      exact declared_signalAt hs
  | none =>
      rw [hs] at hr
      cases mayFloat <;> cases hr

/-- Joined in a port map, a terminal refers to declared signals. -/
lemma refs_binding {mayFloat : Bool} {width : ℕ} (t : Terminal) :
    ∀ r ∈ ((nl.wiresOf t).binding mayFloat width).refs, r.Declared nl.signals := by
  refine wiresOf_cases (fun b _ r hr => ?_) (fun _ _ r hr => ?_) (fun _ _ range hrange r hr => ?_)
    (fun _ _ r hr => ?_)
  · cases hs : nl.signalAt b with
    | some signal =>
        rw [hs] at hr
        obtain rfl := List.mem_singleton.1 hr
        exact declared_signalAt hs
    | none =>
        rw [hs] at hr
        cases mayFloat <;> cases hr
  · cases mayFloat <;> cases hr
  · obtain rfl := List.mem_singleton.1 hr
    exact declared_busRange hrange
  · obtain ⟨a, ha, hr⟩ := List.mem_flatMap.1 hr
    obtain ⟨signal, hsignal, rfl⟩ := List.mem_map.1 ha
    obtain ⟨b, -, rfl⟩ := List.mem_map.1 hsignal
    exact refs_bitActual r hr

lemma refs_terminalBinding {port : String} {c : Component} {index : ℕ} {binding : Binding}
    (h : (nl.terminalBinding port c index).outcome = .ok binding) :
    ∀ r ∈ binding.refs, nl.InScope r := by
  obtain ⟨t, -, rfl⟩ := terminalBinding_eq_ok_iff.1 h
  exact fun r hr => .signal (refs_binding t r hr)

/-! ## Sections -/

lemma inScope_clockDriver (tree : UInt32) : nl.InScope (nl.clockDriver tree) := by
  rw [clockDriver]
  split
  · exact .shared (.inr (by simp [Ref.name]))
  · exact .shared (.inl ⟨_, rfl⟩)

lemma scoped_clocks {systemClock : String} {clocks : List Assignment}
    (h : (nl.clockAssignments systemClock).outcome = .ok clocks) :
    nl.Scoped (clocks.map .assign) := by
  obtain ⟨each, hall, rfl⟩ := clockAssignments_eq_ok_iff.1 h
  refine scoped_assign fun a ha r hr => ?_
  obtain ⟨_, hmem, rfl⟩ := List.mem_filterMap.1 ha
  obtain ⟨source, -, hsource⟩ := exists_mem_of_forall₂ hall hmem
  have hsource := clockAssignment_eq_ok_iff.1 hsource
  split at hsource
  · cases hsource
  · obtain ⟨net, tree, hnet, -, ha⟩ := hsource
    obtain rfl := Option.some.inj ha
    rcases List.mem_pair.1 hr with rfl | rfl
    · exact .signal (declared_signalAt hnet)
    · exact inScope_clockDriver tree

/-- Forced roots have storage of their own, and so has whatever they are joined to. -/
lemma refs_bitWiring {net : Net} {id bit : ℕ} (hnet : (net, id) ∈ nl.numberedNets)
    (hforced : net.forcedRoot = true) (hbit : bit < net.width.toNat) :
    ∀ a ∈ nl.bitWiring net id bit, ∀ r ∈ a.refs, r.Declared nl.signals := by
  have hthis := declared_bitOfNet hnet (fun _ => by simp [Net.isRoot, hforced]) hbit
  intro a ha r hr
  rcases List.mem_append.1 ha with ha | ha
  all_goals
    obtain ⟨p, -, hp⟩ := List.mem_filterMap.1 ha
    obtain ⟨signal, hsignal, rfl⟩ := Option.map_eq_some_iff.1 hp
    rcases List.mem_pair.1 hr with rfl | rfl
  · exact hthis
  · exact declared_signalOf hsignal
  · exact declared_signalOf hsignal
  · exact hthis

lemma distinct_eq_eraseDups {α : Type} [DecidableEq α] (xs : List α) :
    distinct xs = xs.eraseDups := by
  rw [distinct]
  -- the fold keeps what it has seen in reverse
  suffices h : xs.foldl (fun seen x => if x ∈ seen then seen else x :: seen) []
      = xs.eraseDups.reverse by
    rw [h, List.reverse_reverse]
  induction xs using List.reverseRecOn with
  | nil => rfl
  | append_singleton xs x ih =>
      rw [List.foldl_append, ih, eraseDups_concat, List.foldl_cons, List.foldl_nil]
      by_cases hx : x ∈ xs <;> simp [hx]

lemma scoped_wiring : nl.Scoped (nl.wiring.map .assign) := by
  refine scoped_assign fun a ha r hr => ?_
  rw [wiring, distinct_eq_eraseDups, List.mem_eraseDups] at ha
  obtain ⟨⟨net, id⟩, hforced, ha⟩ := List.mem_flatMap.1 ha
  obtain ⟨hnet, hforced⟩ := List.mem_filter.1 hforced
  obtain ⟨bit, hbit, ha⟩ := List.mem_flatMap.1 ha
  exact .signal (refs_bitWiring hnet hforced (List.mem_range.1 hbit) a ha r hr)

lemma scoped_pinSection {pins : List Component} {assignments : List Assignment}
    (hpins : pins ⊆ nl.inputs ++ nl.outputs ++ nl.inouts)
    (h : (Context.pinSection nl pins).outcome = .ok assignments) :
    nl.Scoped (assignments.map .assign) := by
  obtain ⟨each, hall, rfl⟩ := Context.pinSection_eq_ok_iff.1 h
  refine scoped_assign fun a ha r hr => ?_
  obtain ⟨_, hmem, ha⟩ := List.mem_flatten.1 ha
  obtain ⟨⟨port, pin⟩, hpin, has⟩ := exists_mem_of_forall₂ hall hmem
  obtain ⟨t, -, rfl⟩ := pinAssignments_eq_ok_iff.1 has
  obtain ⟨pin', hpin', hport⟩ := List.mem_filterMap.1 hpin
  obtain ⟨⟨name, width⟩, hname, ⟨⟩⟩ := Option.map_eq_some_iff.1 hport
  split at ha
  · cases ha
  · rcases refs_assignments t a ha r hr with hport | hdeclared
    · refine .pin (hport ▸ ?_)
      exact List.mem_map_of_mem (List.mem_filterMap.2 ⟨pin, hpins hpin', hname⟩)
    · exact .signal hdeclared

lemma scoped_gate {g : Gate} {label : String} {c : Component} {assignments : List Assignment}
    (h : (g.assignments nl label c).outcome = .ok assignments) :
    nl.Scoped (assignments.map .assign) := by
  obtain ⟨output, inputs, -, -, rfl⟩ := Gate.assignments_eq_ok_iff.1 h
  refine scoped_assign fun a ha r hr => .signal ?_
  obtain ⟨⟨bit, signal⟩, hbit, rfl⟩ := List.mem_map.1 ha
  rcases List.mem_cons.1 hr with rfl | hr
  · obtain ⟨i, -, hi⟩ := List.mem_filterMap.1 hbit
    obtain ⟨s, hs, ⟨⟩⟩ := Option.map_eq_some_iff.1 hi
    exact declared_signalAt hs
  · obtain ⟨o, ho, hr⟩ := List.mem_flatMap.1 hr
    obtain ⟨t, -, rfl⟩ := List.mem_map.1 ho
    cases hs : Gate.signalBit nl t bit with
    | none => simp [Gate.operand, hs, Operand.refs] at hr
    | some s =>
        simp only [Gate.operand, hs, Operand.refs, List.mem_singleton] at hr
        exact hr ▸ declared_signalAt hs

lemma scoped_multiplexer {c : Component} {definition label : String}
    {bindings : List (String × Binding)} (h : (Multiplexer.bindings nl c).outcome = .ok bindings) :
    nl.Scoped [.instance definition label bindings] := by
  intro s hs r hr
  obtain rfl := List.mem_singleton.1 hs
  obtain ⟨b, hb, hr⟩ := List.mem_flatMap.1 hr
  obtain ⟨p, -, binding, hbinding, rfl⟩ :=
    exists_mem_of_forall₂ (Multiplexer.bindings_eq_ok_iff.1 h) hb
  exact refs_terminalBinding hbinding r hr

lemma scoped_components {ctx : Context} {cs : List Component} {i j : ℕ}
    {placed : List Statement × List Statement}
    (h : (ctx.placeComponents nl i j cs).outcome = .ok placed) :
    nl.Scoped placed.1 ∧ nl.Scoped placed.2 := by
  induction cs generalizing i j placed with
  | nil =>
      obtain rfl : ([], []) = placed := Except.ok.inj h
      exact ⟨.nil, .nil⟩
  | cons c cs ih =>
      obtain ⟨p, -, h⟩ := Context.placeComponents_cons_eq_ok_iff.1 h
      cases p with
      | gate g =>
          obtain ⟨here, rest, hhere, hrest, rfl⟩ := h
          obtain ⟨hinlined, hinstances⟩ := ih hrest
          exact ⟨(scoped_gate hhere).append hinlined, hinstances⟩
      | multiplexer width =>
          obtain ⟨here, rest, hhere, hrest, rfl⟩ := h
          obtain ⟨hinlined, hinstances⟩ := ih hrest
          obtain ⟨bindings, hbindings, hhere⟩ := Attempt.outcome_bind_eq_ok_iff.1 hhere
          obtain rfl := Except.ok.inj hhere
          exact ⟨hinlined, (scoped_multiplexer hbindings).append hinstances⟩

@[simp] lemma name_bubbleSlice (bus : String) (range : Option BubbleRange) (count : ℕ) :
    (bubbleSlice bus range count).name = bus := by
  unfold bubbleSlice
  split
  · rfl
  · split
    · rfl
    · split <;> rfl

/-- What a bubble port is bound to is a part of the bus of the same name. -/
lemma inScope_bubbleBinding {bus : String} {count enclosing : ℕ} {range : Option BubbleRange}
    (hbus : Names.IsShared bus) :
    ∀ b ∈ bubbleBinding bus count range enclosing, ∀ r ∈ b.2.refs, nl.InScope r := by
  intro b hb r hr
  obtain ⟨-, hb⟩ := List.mem_ite_nil_right.1 hb
  obtain rfl := List.mem_singleton.1 hb
  obtain rfl := List.mem_singleton.1 hr
  exact .shared (by simpa using hbus)

lemma inScope_pinBindings {c : Component} {direction : Direction} {pins : List Component}
    {bindings : List (String × Binding)}
    (h : (nl.pinBindings c direction pins).outcome = .ok bindings) :
    ∀ b ∈ bindings, ∀ r ∈ b.2.refs, nl.InScope r := by
  intro b hb
  obtain ⟨port, -, hport⟩ := exists_mem_of_forall₂ (pinBindings_eq_ok_iff.1 h) hb
  obtain ⟨index, binding, -, hbinding, rfl⟩ := pinBinding_eq_ok_iff.1 hport
  exact refs_terminalBinding hbinding

/-- What an instance is bound to: declared signals at its pins, and shared names elsewhere. -/
lemma inScope_instanceBindings {c : Component} {child : Netlist} {bindings : List (String × Binding)}
    (h : (nl.instanceBindings c child).outcome = .ok bindings) :
    ∀ b ∈ bindings, ∀ r ∈ b.2.refs, nl.InScope r := by
  obtain ⟨inputs, outputs, inouts, hinputs, houtputs, hinouts, rfl⟩ :=
    instanceBindings_eq_ok_iff.1 h
  intro b hb
  simp only [List.mem_append, or_assoc] at hb
  rcases hb with hb | hb | hb | hb | hb | hb | hb | hb
  · obtain ⟨tree, -, rfl⟩ := List.mem_map.1 hb
    intro r hr
    obtain rfl := List.mem_singleton.1 hr
    exact .shared (.inl ⟨tree, rfl⟩)
  · obtain ⟨-, hb⟩ := List.mem_ite_nil_right.1 hb
    obtain rfl := List.mem_singleton.1 hb
    intro r hr
    obtain rfl := List.mem_singleton.1 hr
    exact .shared (.inr (by simp [Ref.name]))
  · exact inScope_bubbleBinding (.inr (by simp)) b hb
  · exact inScope_bubbleBinding (.inr (by simp)) b hb
  · exact inScope_bubbleBinding (.inr (by simp)) b hb
  · exact inScope_pinBindings hinputs b hb
  · exact inScope_pinBindings houtputs b hb
  · exact inScope_pinBindings hinouts b hb

lemma scoped_instances {ctx : Context} {statements : List Statement}
    (h : (ctx.placeInstances nl).outcome = .ok statements) : nl.Scoped statements := by
  obtain ⟨each, hall, rfl⟩ := Context.placeInstances_eq_ok_iff.1 h
  intro s hs
  obtain ⟨_, hmem, hs⟩ := List.mem_flatten.1 hs
  obtain ⟨⟨c, index⟩, -, hplaces⟩ := exists_mem_of_forall₂ hall hmem
  rw [Context.Places] at hplaces
  split at hplaces
  · subst hplaces
    cases hs
  · obtain ⟨circuit, statement, -, hstatement, rfl⟩ := hplaces
    obtain ⟨bindings, hbindings, rfl⟩ := Context.circuitInstance_eq_ok_iff.1 hstatement
    obtain rfl := List.mem_singleton.1 hs
    intro r hr
    obtain ⟨b, hb, hr⟩ := List.mem_flatMap.1 hr
    exact inScope_instanceBindings hbindings b hb r hr

lemma statements_titled (title : String) (statements : List Statement) :
    (Section.titled title statements).flatMap Section.statements = statements := by
  cases statements <;> simp [Section.titled]

/-- **All references of a body are in scope.** -/
theorem scoped_sections {ctx : Context} {sections : List Section}
    (h : (ctx.sections nl).outcome = .ok sections) :
    nl.Scoped (sections.flatMap Section.statements) := by
  obtain ⟨clocks, inputs, outputs, inouts, placed, instances, hclocks, hinputs, houtputs, hinouts,
    hplaced, hinstances, rfl⟩ := Context.sections_eq_ok_iff.1 h
  simp only [List.flatMap_append, Context.assignmentSection, statements_titled]
  obtain ⟨hinlined, hplaced⟩ := scoped_components hplaced
  refine .append (.append (.append (.append (.append (.append (.append ?_ ?_) ?_) ?_) ?_) hinlined)
    hplaced) (scoped_instances hinstances)
  · exact scoped_clocks hclocks
  · exact scoped_wiring
  · exact scoped_pinSection (by simp) hinputs
  · exact scoped_pinSection (by simp) houtputs
  · exact scoped_pinSection (by simp) hinouts

/-! ## Nets -/

/-- A shared name does not start as the names of nets do. -/
lemma head?_of_isShared {name : String} (h : Names.IsShared name) : name.toList.head? ≠ some 's' := by
  rcases h with ⟨tree, rfl⟩ | h
  · show ("logisimClockTree" ++ toString tree).toList.head? ≠ _
    simp
  · simp only [List.mem_cons, List.not_mem_nil, or_false] at h
    rcases h with rfl | rfl | rfl | rfl <;> decide

lemma not_isShared_of_net {name : String} {id : ℕ} (h : name = Names.net id ∨ name = Names.bus id) :
    ¬ Names.IsShared name := by
  intro hshared
  refine head?_of_isShared hshared ?_
  rcases h with rfl | rfl
  · show ("s_logisimNet" ++ toString id).toList.head? = _
    simp
  · show ("s_logisimBus" ++ toString id).toList.head? = _
    simp

/-- What carries a point, as a text: a whole wire, or an element of a bus. -/
lemma text_signalOf {p : Point} {r : Ref} (h : nl.signalOf p = some r) (d : Dialect) :
    (⟨r.text d, 1⟩ : Signal) ∈ nl.signals
      ∨ ∃ name width bit, (⟨name, width⟩ : Signal) ∈ nl.signals ∧ 1 < width ∧ bit < width
        ∧ r.text d = d.elementKey name bit := by
  obtain ⟨root, net, -, -, rfl⟩ := signalOf_eq_some_iff.1 h
  have hdeclared := declared_signalOf h
  rw [bitOfNet] at hdeclared ⊢
  split at hdeclared
  · next hbus =>
      cases hdeclared with
      | bit hmem hwidth hbit => exact .inr ⟨_, _, _, hmem, hwidth, hbit, by rw [if_pos hbus]; rfl⟩
  · next hbus =>
      cases hdeclared with
      | wire hmem => exact .inl (by rwa [if_neg hbus])

/-- **The naming of signals is faithful.**  Declared signals have different names; what carries a
point is a declared wire or an element of a declared bus within its width, and a terminal that is
wired as a range is so within a declared bus; two points are carried by the same text exactly if
they have the same root.  So a reference to the signal of a net in a body is to a declared one,
within its width, unless a pin has been given that very name. -/
theorem signals_faithful (ctx : Context) (nl : Netlist) (d : Dialect) :
    (nl.signals.map Signal.name).Nodup
    ∧ (∀ p r, nl.signalOf p = some r →
        (⟨r.text d, 1⟩ : Signal) ∈ nl.signals
        ∨ ∃ name width bit, (⟨name, width⟩ : Signal) ∈ nl.signals ∧ 1 < width ∧ bit < width
          ∧ r.text d = d.elementKey name bit)
    ∧ (∀ t r, nl.wiresOf t = .range r →
        ∃ name width hi lo, (⟨name, width⟩ : Signal) ∈ nl.signals ∧ 1 < width ∧ lo ≤ hi ∧ hi < width
          ∧ r = .range name hi lo)
    ∧ (∀ p, (nl.signalOf p).isSome = (nl.rootOf p).isSome)
    ∧ (∀ p q r s, nl.signalOf p = some r → nl.signalOf q = some s →
        (r.text d = s.text d ↔ nl.rootOf p = nl.rootOf q))
    ∧ ∀ sections, (ctx.sections nl).outcome = .ok sections →
        ∀ s ∈ sections.flatMap Section.statements, ∀ r ∈ s.refs, ∀ id,
          r.name = Names.net id ∨ r.name = Names.bus id →
            r.Declared nl.signals ∨ r.name ∈ pinNames (nl.inputs ++ nl.outputs ++ nl.inouts) := by
  refine ⟨signals_nodup nl, fun p r h => text_signalOf h d, fun t r h => ?_,
    fun p => isSome_signalOf, fun p q r s hr hs => text_signalOf_inj hr hs d,
    fun sections h s hs r hr id hid => ?_⟩
  · revert h
    refine wiresOf_cases (fun b _ h => by cases h) (fun _ _ h => by cases h)
      (fun _ _ range hrange h => ?_) (fun _ _ h => by cases h)
    cases h
    cases declared_busRange hrange with
    | range hmem hwidth hle hhi => exact ⟨_, _, _, _, hmem, hwidth, hle, hhi, rfl⟩
  · cases scoped_sections h s hs r hr with
    | signal hdeclared => exact .inl hdeclared
    | pin hpin => exact .inr hpin
    | shared hshared => exact absurd hshared (not_isShared_of_net hid)

/-- Two views of one bus, one of them through the other: the same bit has the same text. -/
theorem signals_faithful_views :
    let nl : Netlist :=
      { nets := #[{ width := 8 }, { width := 4, parent := some ⟨0, 2⟩ },
          { width := 2, parent := some ⟨1, 1⟩ }, { width := 1 }] }
    nl.signals = [⟨"s_logisimNet3", 1⟩, ⟨"s_logisimBus0", 8⟩]
    ∧ nl.signalOf ⟨2, 0⟩ = some (.bit "s_logisimBus0" 3)
    ∧ nl.rootOf ⟨2, 0⟩ = nl.rootOf ⟨1, 1⟩
    ∧ (nl.signals.map Signal.name).Nodup := by
  intro nl
  refine ⟨by decide, by decide, ?_, (signals_faithful { design := {} } nl .vhdl).1⟩
  have htext := (signals_faithful { design := {} } nl .vhdl).2.2.2.2.1 ⟨2, 0⟩ ⟨1, 1⟩
    (.bit "s_logisimBus0" 3) (.bit "s_logisimBus0" 3) (by decide) (by decide)
  exact htext.1 rfl

end Netlist

end Netscribe
