import Netscribe.Generation.Store
import Netscribe.Proofs.Circuit.Faults
import Netscribe.Proofs.Generation.Offers

/-!
# Runs into a store

A store refuses a module only if one of its name was offered before, and no run offers two modules
of one name.  So nothing that a run offers to an empty store is refused.

* `Store.Consistent` — the names of a store are those of its modules, kept by every offer.
* `Context.offered_names_nodup` — no sink is offered two modules of one name.
* `RunReport.Course.refused_of_outcome` — only a refusal makes a run fail with one.
* **`Context.run_stores`** — a run into an empty store.
-/

namespace Netscribe

/-! ## Stores -/

namespace Store

variable {s s' : Store} {m : GeneratedModule} {modules : List GeneratedModule}

/-- **The two records of a store agree**: the names that are taken are those of its modules, none of
which came twice. -/
structure Consistent (s : Store) : Prop where
  taken : ∀ name, name ∈ s.taken ↔ name ∈ s.names
  nodup : s.names.Nodup

lemma not_mem_taken_empty (name : String) : name ∉ empty.taken :=
  List.not_mem_nil

lemma consistent_empty : Consistent .empty :=
  ⟨fun _ => Iff.rfl, List.nodup_nil⟩

lemma offer_of_taken (h : m.name ∈ s.taken) :
    Store.offer m s = (.error (.duplicate m.name), s) := by
  rw [offer, add, if_pos h]

lemma offer_of_new (h : m.name ∉ s.taken) :
    Store.offer m s = (.ok (), ⟨s.modules ++ [m], m.name :: s.taken⟩) := by
  rw [offer, add, if_neg h]

/-- **A refusal leaves a store as it is**, its modules and its names. -/
lemma eq_of_refused {cause : SinkError} (h : Store.offer m s = (.error cause, s')) : s' = s := by
  by_cases hm : m.name ∈ s.taken
  · rw [offer_of_taken hm] at h
    exact (congrArg Prod.snd h).symm
  · rw [offer_of_new hm] at h
    cases congrArg Prod.fst h

lemma Consistent.offer (h : s.Consistent) (m : GeneratedModule) :
    (Store.offer m s).2.Consistent := by
  by_cases hm : m.name ∈ s.taken
  · rw [offer_of_taken hm]
    exact h
  · rw [offer_of_new hm]
    have hnames : names ⟨s.modules ++ [m], m.name :: s.taken⟩ = s.names ++ [m.name] := by
      simp [names]
    refine ⟨fun name => ?_, ?_⟩
    · rw [hnames, List.mem_append, List.mem_singleton, ← h.taken, List.mem_cons, or_comm]
    · rw [hnames, List.nodup_append_comm, List.singleton_append]
      exact List.nodup_cons.2 ⟨fun hmem => hm ((h.taken _).2 hmem), h.nodup⟩

/-- **Whatever is offered to a store, its records agree.** -/
theorem Consistent.offerAll (h : s.Consistent) (modules : List GeneratedModule) :
    (offerAll Store.offer modules s).2.Consistent := by
  induction modules generalizing s with
  | nil => exact h
  | cons m modules ih =>
      rw [offerAll_cons]
      exact ih (h.offer m)

/-- Modules of different names, all new to a store, are taken one after the other. -/
lemma offerAll_of_new (hnodup : (modules.map GeneratedModule.name).Nodup)
    (hnew : ∀ m ∈ modules, m.name ∉ s.taken) :
    (∀ a ∈ (offerAll Store.offer modules s).1, a = .ok ())
      ∧ (offerAll Store.offer modules s).2.modules = s.modules ++ modules := by
  induction modules generalizing s with
  | nil => exact ⟨by simp, (List.append_nil _).symm⟩
  | cons m modules ih =>
      obtain ⟨hfirst, hnodup⟩ := List.nodup_cons.1 hnodup
      obtain ⟨hm, hnew⟩ := List.forall_mem_cons.1 hnew
      rw [offerAll_cons, offer_of_new hm]
      obtain ⟨hanswers, hmodules⟩ := ih (s := ⟨s.modules ++ [m], m.name :: s.taken⟩) hnodup
        fun x hx hmem => (List.mem_cons.1 hmem).elim
          (fun hname => hfirst (hname ▸ List.mem_map_of_mem hx)) (hnew x hx)
      refine ⟨List.forall_mem_cons.2 ⟨rfl, hanswers⟩, ?_⟩
      rw [hmodules, List.append_assoc, List.singleton_append]

end Store

/-! ## Refusals -/

/-- A fault that is the refusal of a module. -/
def Fault.IsRefusal (fault : Fault) : Prop :=
  ∃ cause, fault = .sink cause

lemma Context.Lacks.not_isRefusal {ctx : Context} {nl : Netlist} {fault : Fault}
    (h : ctx.Lacks nl fault) : ¬ fault.IsRefusal := by
  rintro ⟨cause, rfl⟩
  cases h

namespace Plan

variable {p : Plan} {path : List String}

/-- **A walk that no refusal ends**, as nothing is offered on the way. -/
def Unrefused (p : Plan) : Prop :=
  ∀ path fault, p.fault = some (path, fault) → ¬ fault.IsRefusal

lemma unrefused_empty : Unrefused {} := by
  intro path fault h
  cases h

lemma unrefused_halt {fault : Fault} (h : ¬ fault.IsRefusal) : Unrefused (p.halt path fault) := by
  rintro _ _ ⟨⟩
  exact h

/-- **No refusal ends a walk.** -/
lemma kept_unrefused : Kept Unrefused where
  noGenerator _ _ _ _ := unrefused_halt (by simp [Fault.IsRefusal])
  noCircuit _ _ _ _ := unrefused_halt (by simp [Fault.IsRefusal])
  mark _ h := h
  add _ _ _ h := h

end Plan

namespace RunReport.Course

variable {σ : Type} {offer : GeneratedModule → StateM σ (Except SinkError Unit)} {d : Dialect}
  {fault : Option (List String × Fault)} {tasks : List Task} {s s' : σ}
  {modules : List GeneratedModule} {r : RunReport (List ModuleSummary)}

/-- **Only a refusal makes a run fail with one**: where neither the plan nor a definition does, the
sink has answered so. -/
lemma refused_of_outcome (hfault : ∀ path e, fault = some (path, e) → ¬ e.IsRefusal)
    (htasks : ∀ t ∈ tasks, t.definition.FailsOnly fun e => ¬ e.IsRefusal)
    (h : Course offer d fault tasks s modules r s') {cause : SinkError}
    (hfails : r.outcome = .error (.sink cause)) :
    .error cause ∈ (offerAll offer modules s).1 := by
  induction h with
  | finish =>
      rcases fault with _ | ⟨path, e⟩
      · cases hfails
      · exact absurd ⟨cause, Except.error.inj hfails⟩ (hfault path e rfl)
  | broken hd =>
      exact absurd ⟨cause, Except.error.inj hfails⟩ (htasks _ List.mem_cons_self _ hd)
  | refused _ hoffer =>
      obtain rfl := Fault.sink.inj (Except.error.inj hfails)
      rw [offerAll_cons, hoffer]
      exact List.mem_cons_self
  | @taken task tasks s s₁ s' m modules r _ hoffer _ ih =>
      rw [offerAll_cons, hoffer]
      refine List.mem_cons_of_mem _ (ih (fun t ht => htasks t (List.mem_cons_of_mem _ ht)) ?_)
      rwa [outcome_after, outcome_map_eq_error_iff] at hfails

/-- The modules on the way have the names of the tasks, one after the other from the first on. -/
lemma names_begin {name : Task → String}
    (hname : ∀ t ∈ tasks, ∀ m, t.definition.outcome = .ok m → m.name = name t)
    (h : Course offer d fault tasks s modules r s') :
    modules.map GeneratedModule.name <+: tasks.map name := by
  induction h with
  | finish => exact List.nil_prefix
  | broken _ => exact List.nil_prefix
  | refused hd _ =>
      exact List.cons_prefix_cons.2 ⟨hname _ List.mem_cons_self _ hd, List.nil_prefix⟩
  | taken hd _ _ ih =>
      exact List.cons_prefix_cons.2 ⟨hname _ List.mem_cons_self _ hd,
        ih fun t ht => hname t (List.mem_cons_of_mem _ ht)⟩

end RunReport.Course

/-! ## Runs -/

namespace Context

variable {ctx : Context} {top : Circuit}

/-- **No sink is offered two modules of one name**, also where names of circuits, of their variants
and of primitives are the same. -/
theorem offered_names_nodup {σ : Type} (ctx : Context) (scope : String) (d : Dialect)
    (offer : GeneratedModule → StateM σ (Except SinkError Unit)) (s : σ) :
    ((ctx.offered scope d offer s).map GeneratedModule.name).Nodup := by
  cases htop : ctx.design.topCircuit? with
  | none =>
      rw [offered, run_of_none htop]
      exact List.nodup_nil
  | some top =>
      have htidy := plan_tidy htop
      have hnames := (run_course htop scope d offer s).names_begin
        fun t ht _ hm => name_of_definitionOf? (htidy.made t ht).2 hm
      exact htidy.nodup.sublist hnames.sublist

/-- A plan does not end with a refusal. -/
lemma plan_unrefused (top : Circuit) : Plan.Unrefused (ctx.plan top) :=
  Plan.visit_keeps Plan.kept_unrefused _ _ _ _ _ _ Plan.unrefused_empty

/-- No definition of a plan fails with a refusal. -/
lemma plan_failsOnly (htop : ctx.design.topCircuit? = some top) :
    ∀ t ∈ (ctx.plan top).tasks, t.definition.FailsOnly fun e => ¬ e.IsRefusal := by
  intro t ht
  have hmade := ((plan_tidy htop).made t ht).2
  cases horigin : t.origin with
  | circuit id gated =>
      rw [horigin] at hmade
      obtain ⟨c, -, hdefinition⟩ := Option.map_eq_some_iff.1 hmade
      rw [← hdefinition]
      exact definition_failsOnly.mono fun _ => Lacks.not_isRefusal
  | primitive p =>
      rw [horigin] at hmade
      obtain ⟨m, -, hdefinition⟩ := Option.map_eq_some_iff.1 hmade
      rw [← hdefinition]
      exact .of_succeeds ⟨m, rfl⟩

/-- **An empty store never refuses a run**, whatever names are the same in the design, and its records
stay in step.  A run into it does not fail for a refusal; the store has taken all that was offered,
under different names, also where the run fails; and the summary of a run that succeeds has these
modules in order.  Whatever is offered to a store, its set of names is that of its modules, and a
module that is refused leaves both as they are. -/
theorem run_stores (ctx : Context) (scope : String) (d : Dialect) :
    (∀ cause, (ctx.run scope d Store.offer .empty).1.outcome ≠ .error (.sink cause))
    ∧ (ctx.run scope d Store.offer .empty).2.modules = ctx.offered scope d Store.offer .empty
    ∧ (ctx.run scope d Store.offer .empty).2.names.Nodup
    ∧ (∀ summary, (ctx.run scope d Store.offer .empty).1.outcome = .ok summary →
      summary.modules = (ctx.run scope d Store.offer .empty).2.modules.map fun m =>
        ⟨m.name, m.directory, m.digest, m.interface.length + m.body.length⟩)
    ∧ ∀ offers answers s, offerAll Store.offer offers .empty = (answers, s) →
      (∀ name, name ∈ s.taken ↔ name ∈ s.names)
        ∧ ∀ m cause s', Store.offer m s = (.error cause, s') → s' = s := by
  have hrecords : ∀ offers answers s, offerAll Store.offer offers .empty = (answers, s) →
      (∀ name, name ∈ s.taken ↔ name ∈ s.names)
        ∧ ∀ m cause s', Store.offer m s = (.error cause, s') → s' = s := by
    intro offers answers s h
    have hconsistent := Store.consistent_empty.offerAll offers
    rw [h] at hconsistent
    exact ⟨hconsistent.taken, fun _ _ _ => Store.eq_of_refused⟩
  cases htop : ctx.design.topCircuit? with
  | none =>
      rw [offered, run_of_none htop, run_of_none htop]
      refine ⟨fun cause h => ?_, rfl, List.nodup_nil, fun summary h => ?_, hrecords⟩
      · cases h
      · cases h
  | some top =>
      have hcourse := run_course htop scope d Store.offer .empty
      have hnodup := ctx.offered_names_nodup scope d Store.offer .empty
      obtain ⟨hanswers, hmodules⟩ :=
        Store.offerAll_of_new hnodup fun m _ => Store.not_mem_taken_empty m.name
      have hheld : (ctx.run scope d Store.offer .empty).2.modules
          = ctx.offered scope d Store.offer .empty := by
        rw [← hcourse.offerAll_eq, hmodules]
        rfl
      refine ⟨fun cause hfails => ?_, hheld, ?_, fun summary hok => ?_, hrecords⟩
      · -- the refusal would be among the answers
        rw [run_of_top htop, RunReport.outcome_map_eq_error_iff] at hfails
        have hanswer := hcourse.refused_of_outcome (plan_unrefused top) (plan_failsOnly htop)
          hfails
        cases hanswers _ hanswer
      · rw [Store.names, hheld]
        exact hnodup
      · rw [run_of_top htop] at hok
        obtain ⟨summaries, hsummaries⟩ := RunReport.outcome_map_eq_ok hok
        obtain ⟨-, rfl, -⟩ := hcourse.of_ok hsummaries
        rw [RunReport.map, hsummaries] at hok
        obtain rfl := Except.ok.inj hok
        rw [hheld]
        exact List.map_congr_left fun m _ => by
          rw [GeneratedModule.summary, GeneratedModule.lines, List.length_append]

end Context

end Netscribe
