import Netscribe.Proofs.Generation.Attempt
import Netscribe.Proofs.Generation.Course
import Netscribe.Proofs.Generation.Walk

/-!
# What a run offers

A run is watched by a record of the modules that are offered, taken or not.  The record changes
nothing, and after a run that succeeds it has one module for each planned definition: the one that
its origin makes.

* `Context.offered` — the record of a run, with `Context.run_recorded`.
* `Context.run_course` — the course of a run, on which this is offered.
* `Context.Makes` — a module is what an origin makes, with `Context.makes_of_mem_offered`.
* **`Context.run_offers`** — what was offered when a run has succeeded.
-/

namespace Netscribe

variable {σ : Type} {offer : GeneratedModule → StateM σ (Except SinkError Unit)} {d : Dialect}

/-! ## Definitions -/

namespace Context

variable {ctx : Context}

/-- **A module is what an origin makes**, under the origin's own name. -/
def Makes (ctx : Context) (d : Dialect) (o : Origin) (m : GeneratedModule) : Prop :=
  ∃ attempt definition, ctx.definitionOf? o = some attempt ∧ attempt.outcome = .ok definition
    ∧ m.name = ctx.nameOf o ∧ m.interface = definition.interface d ∧ m.body = definition.body d

/-- The definition of a circuit has the name that was asked for. -/
lemma name_of_definition {c : Circuit} {name : String} {definition : Definition}
    (h : (ctx.definition c name).outcome = .ok definition) : definition.name = name := by
  obtain ⟨declarations, -, h⟩ := Attempt.outcome_bind_eq_ok_iff.1 h
  obtain ⟨sections, -, h⟩ := Attempt.outcome_bind_eq_ok_iff.1 h
  rw [← Except.ok.inj h]

lemma name_of_definitionOf? {o : Origin} {attempt : Attempt Definition} {definition : Definition}
    (h : ctx.definitionOf? o = some attempt) (hok : attempt.outcome = .ok definition) :
    definition.name = ctx.nameOf o := by
  cases o with
  | circuit id gated =>
      obtain ⟨c, hc, rfl⟩ := Option.map_eq_some_iff.1 h
      rw [nameOf_circuit hc, name_of_definition hok]
  | primitive p =>
      cases p with
      | gate g => cases h
      | multiplexer width =>
          cases h
          rw [← Except.ok.inj hok]
          rfl

lemma makes_of_task {t : Task} {m : GeneratedModule}
    (ht : ctx.definitionOf? t.origin = some t.definition) (h : t.Makes d m) : ctx.Makes d t.origin m := by
  obtain ⟨definition, hok, rfl⟩ := h
  exact ⟨t.definition, definition, ht, hok, name_of_definitionOf? ht hok, rfl, rfl⟩

/-! ## Runs -/

variable {scope : String} {s : σ}

/-- **The modules that a run offers** to a sink in some state, in order, taken or not. -/
def offered (ctx : Context) (scope : String) (d : Dialect)
    (offer : GeneratedModule → StateM σ (Except SinkError Unit)) (s : σ) : List GeneratedModule :=
  (ctx.run scope d (recorded offer) ([], s)).2.1

lemma run_of_top {τ : Type} {sink : GeneratedModule → StateM τ (Except SinkError Unit)} {t : τ}
    {top : Circuit} (h : ctx.design.topCircuit? = some top) :
    ctx.run scope d sink t =
      (((RunReport.ofTasks sink d (ctx.plan top).fault (ctx.plan top).tasks t).1.map
          (⟨Names.definition top.name false, d, ·⟩)),
        (RunReport.ofTasks sink d (ctx.plan top).fault (ctx.plan top).tasks t).2) := by
  rw [run, Context.top, h]
  rfl

/-- Without a top circuit nothing is offered. -/
lemma run_of_none {τ : Type} {sink : GeneratedModule → StateM τ (Except SinkError Unit)} {t : τ}
    (h : ctx.design.topCircuit? = none) :
    ctx.run scope d sink t = (.failed scope (.missingCircuit "" ctx.design.top), t) := by
  rw [run, Context.top, h]
  rfl

/-- **The course of a run**: its tasks are those of the plan, and the modules on the way are the ones
recorded. -/
theorem run_course {top : Circuit} (htop : ctx.design.topCircuit? = some top) (scope : String)
    (d : Dialect) (offer : GeneratedModule → StateM σ (Except SinkError Unit)) (s : σ) :
    RunReport.Course offer d (ctx.plan top).fault (ctx.plan top).tasks s
      (ctx.offered scope d offer s)
      (RunReport.ofTasks offer d (ctx.plan top).fault (ctx.plan top).tasks s).1
      (ctx.run scope d offer s).2 := by
  obtain ⟨modules, hcourse, hrecord⟩ :=
    RunReport.exists_course offer d (ctx.plan top).fault (ctx.plan top).tasks s
  rw [offered, run_of_top htop, run_of_top htop, hrecord, List.nil_append]
  exact hcourse

/-- **The modules offered are told without touching the run.** -/
theorem run_recorded (ctx : Context) (scope : String) (d : Dialect)
    (offer : GeneratedModule → StateM σ (Except SinkError Unit)) (s : σ) :
    ctx.run scope d (recorded offer) ([], s) =
      ((ctx.run scope d offer s).1, ctx.offered scope d offer s,
        (ctx.run scope d offer s).2) := by
  rw [offered]
  cases htop : ctx.design.topCircuit? with
  | none => rw [run_of_none htop, run_of_none htop]
  | some top =>
      obtain ⟨modules, -, hrecord⟩ :=
        RunReport.exists_course offer d (ctx.plan top).fault (ctx.plan top).tasks s
      rw [run_of_top htop, run_of_top htop, hrecord]

/-- **Whatever a run offers is what a planned definition's origin makes**, also where the run fails
later. -/
theorem makes_of_mem_offered {m : GeneratedModule} (hm : m ∈ ctx.offered scope d offer s) :
    ∃ top, ctx.design.topCircuit? = some top
      ∧ ∃ o ∈ (ctx.plan top).origins, ctx.Makes d o m := by
  cases htop : ctx.design.topCircuit? with
  | none =>
      rw [offered, run_of_none htop] at hm
      cases hm
  | some top =>
      obtain ⟨t, ht, htm⟩ := (run_course htop scope d offer s).exists_task m hm
      exact ⟨top, rfl, t.origin, List.mem_map_of_mem ht,
        makes_of_task ((plan_tidy htop).made t ht).2 htm⟩

/-- **A run that succeeds has offered what each planned definition's origin makes**, in the order of
the plan. -/
theorem run_offers {summary : Summary} (h : (ctx.run scope d offer s).1.outcome = .ok summary) :
    ∃ top, ctx.design.topCircuit? = some top ∧ (ctx.plan top).fault = none
      ∧ List.Forall₂ (ctx.Makes d) (ctx.plan top).origins (ctx.offered scope d offer s) := by
  cases htop : ctx.design.topCircuit? with
  | none =>
      rw [run_of_none htop] at h
      cases h
  | some top =>
      rw [run_of_top htop] at h
      obtain ⟨summaries, hok⟩ := RunReport.outcome_map_eq_ok h
      obtain ⟨hfault, -, hmakes⟩ := (run_course htop scope d offer s).of_ok hok
      refine ⟨top, rfl, hfault, ?_⟩
      rw [Plan.origins, List.forall₂_map_left_iff]
      have hboth := (List.forall₂_and_left _ _).2 ⟨(plan_tidy htop).made, hmakes⟩
      exact hboth.imp fun t m ht => makes_of_task ht.1.2 ht.2

end Context

end Netscribe
