import Mathlib.Data.List.Forall2
import Netscribe.Generation.Run

/-!
# The course of a run

Tasks are carried out one after the other.  What happens next is one of four things: no task is
left, the next one has a fault, its module is refused, or it is taken and the rest is carried out.
Whatever holds of all runs is read off from the four, by induction on the course.

* `recorded`, `takeAll` — a sink with a record, and one without any demand.
* `RunReport.Course` — the course of tasks: what is offered on the way, the report, and the state of
  the sink in the end.
* **`RunReport.exists_course`** — every run has a course, and a record of it does not change it.
* `offerAll`, `RunReport.Course.offerAll_eq` — the sink is asked for nothing else.
-/

namespace Netscribe

variable {σ : Type} {offer : GeneratedModule → StateM σ (Except SinkError Unit)} {d : Dialect}

/-- **A sink with a record** of every module that is offered to it. -/
def recorded {σ : Type} (offer : GeneratedModule → StateM σ (Except SinkError Unit))
    (m : GeneratedModule) : StateM (List GeneratedModule × σ) (Except SinkError Unit) :=
  fun (seen, s) => ((offer m s).1, seen ++ [m], (offer m s).2)

/-- A sink that takes everything and keeps nothing. -/
def takeAll (_ : GeneratedModule) : StateM Unit (Except SinkError Unit) :=
  return .ok ()

/-- A module is what a task makes. -/
def Task.Makes (d : Dialect) (t : Task) (m : GeneratedModule) : Prop :=
  ∃ definition, t.definition.outcome = .ok definition ∧ m = .ofDefinition d t.directory definition

lemma recorded_eq {m : GeneratedModule} {s s' : σ} {result : Except SinkError Unit}
    (h : offer m s = (result, s')) (seen : List GeneratedModule) :
    recorded offer m (seen, s) = (result, seen ++ [m], s') := by
  simp only [recorded, h]

/-- **Offers modules one after the other**, whatever the answers are, and keeps these. -/
def offerAll (offer : GeneratedModule → StateM σ (Except SinkError Unit))
    (modules : List GeneratedModule) : StateM σ (List (Except SinkError Unit)) :=
  modules.mapM offer

@[simp] lemma offerAll_nil (s : σ) : offerAll offer [] s = ([], s) := rfl

lemma offerAll_cons (m : GeneratedModule) (modules : List GeneratedModule) (s : σ) :
    offerAll offer (m :: modules) s =
      ((offer m s).1 :: (offerAll offer modules (offer m s).2).1,
        (offerAll offer modules (offer m s).2).2) := by
  rw [offerAll, List.mapM_cons]
  rfl

namespace RunReport

/-! ## One task -/

section Task

variable {fault : Option (List String × Fault)} {task : Task} {tasks : List Task} {s s' : σ}
  {definition : Definition}

lemma ofTasks_cons_of_error {e : Fault} (h : task.definition.outcome = .error e) :
    ofTasks offer d fault (task :: tasks) s =
      (⟨task.definition.reports task.scope, .error e⟩, s) := by
  rw [ofTasks, h]
  rfl

lemma ofTasks_cons_of_refused {cause : SinkError} (h : task.definition.outcome = .ok definition)
    (hoffer : offer (.ofDefinition d task.directory definition) s = (.error cause, s')) :
    ofTasks offer d fault (task :: tasks) s =
      ((failed task.scope (.sink cause)).after (task.definition.reports task.scope), s') := by
  rw [ofTasks, h]
  show StateT.bind _ _ s = _
  rw [StateT.bind, hoffer]
  rfl

lemma ofTasks_cons_of_taken (h : task.definition.outcome = .ok definition)
    (hoffer : offer (.ofDefinition d task.directory definition) s = (.ok (), s')) :
    ofTasks offer d fault (task :: tasks) s =
      ((((ofTasks offer d fault tasks s').1.map
          ((GeneratedModule.ofDefinition d task.directory definition).summary :: ·)).after
        (task.definition.reports task.scope)), (ofTasks offer d fault tasks s').2) := by
  rw [ofTasks, h]
  show StateT.bind _ _ s = _
  rw [StateT.bind, hoffer]
  rfl

end Task

lemma outcome_map_eq_ok {α β : Type} {f : α → β} {r : RunReport α} {b : β}
    (h : (r.map f).outcome = .ok b) : ∃ a, r.outcome = .ok a := by
  cases hr : r.outcome with
  | error fault =>
      rw [map, hr] at h
      cases h
  | ok a => exact ⟨a, rfl⟩

@[simp] lemma outcome_map_eq_error_iff {α β : Type} {f : α → β} {r : RunReport α} {fault : Fault} :
    (r.map f).outcome = .error fault ↔ r.outcome = .error fault := by
  rw [map]
  cases r.outcome <;> simp [Except.map]

@[simp] lemma outcome_after {α : Type} (earlier : List Diagnostic) (r : RunReport α) :
    (r.after earlier).outcome = r.outcome := rfl

/-! ## All tasks -/

/-- **The course of tasks that are carried out** from a state of the sink on: the modules that are
offered on the way, taken or not, the report, and the state of the sink in the end. -/
inductive Course (offer : GeneratedModule → StateM σ (Except SinkError Unit)) (d : Dialect)
    (fault : Option (List String × Fault)) :
    List Task → σ → List GeneratedModule → RunReport (List ModuleSummary) → σ → Prop
  /-- No task is left. -/
  | finish {s} : Course offer d fault [] s [] (ofEnd fault) s
  /-- The next definition has a fault. -/
  | broken {task tasks s e} : task.definition.outcome = .error e →
      Course offer d fault (task :: tasks) s [] ⟨task.definition.reports task.scope, .error e⟩ s
  /-- The next module is refused. -/
  | refused {task tasks s s' m cause} : task.definition.outcome = .ok m →
      offer (.ofDefinition d task.directory m) s = (.error cause, s') →
      Course offer d fault (task :: tasks) s [.ofDefinition d task.directory m]
        ((failed task.scope (.sink cause)).after (task.definition.reports task.scope)) s'
  /-- The next module is taken. -/
  | taken {task tasks s s' s'' m modules r} : task.definition.outcome = .ok m →
      offer (.ofDefinition d task.directory m) s = (.ok (), s') →
      Course offer d fault tasks s' modules r s'' →
      Course offer d fault (task :: tasks) s (.ofDefinition d task.directory m :: modules)
        ((r.map ((GeneratedModule.ofDefinition d task.directory m).summary :: ·)).after
          (task.definition.reports task.scope)) s''

variable {fault : Option (List String × Fault)} {tasks : List Task} {s s' : σ}
  {modules : List GeneratedModule} {r : RunReport (List ModuleSummary)}

/-- **Every run of tasks has a course**, and a record of what is offered changes neither the report
nor the state of the sink. -/
theorem exists_course (offer : GeneratedModule → StateM σ (Except SinkError Unit)) (d : Dialect)
    (fault : Option (List String × Fault)) (tasks : List Task) (s : σ) :
    ∃ modules, Course offer d fault tasks s modules (ofTasks offer d fault tasks s).1
        (ofTasks offer d fault tasks s).2
      ∧ ∀ seen, ofTasks (recorded offer) d fault tasks (seen, s)
        = ((ofTasks offer d fault tasks s).1, seen ++ modules,
            (ofTasks offer d fault tasks s).2) := by
  induction tasks generalizing s with
  | nil => exact ⟨[], .finish, fun seen => by rw [List.append_nil]; rfl⟩
  | cons task tasks ih =>
      cases hd : task.definition.outcome with
      | error e =>
          refine ⟨[], ?_, fun seen => ?_⟩
          · rw [ofTasks_cons_of_error hd]
            exact .broken hd
          · rw [ofTasks_cons_of_error hd, ofTasks_cons_of_error hd, List.append_nil]
      | ok m =>
          rcases hoffer : offer (.ofDefinition d task.directory m) s with ⟨_ | _, s'⟩
          · refine ⟨[.ofDefinition d task.directory m], ?_, fun seen => ?_⟩
            · rw [ofTasks_cons_of_refused hd hoffer]
              exact .refused hd hoffer
            · rw [ofTasks_cons_of_refused hd hoffer,
                ofTasks_cons_of_refused hd (recorded_eq hoffer seen)]
          · obtain ⟨modules, hcourse, hrecord⟩ := ih s'
            refine ⟨.ofDefinition d task.directory m :: modules, ?_, fun seen => ?_⟩
            · rw [ofTasks_cons_of_taken hd hoffer]
              exact .taken hd hoffer hcourse
            · rw [ofTasks_cons_of_taken hd hoffer,
                ofTasks_cons_of_taken hd (recorded_eq hoffer seen), hrecord, List.append_assoc,
                List.singleton_append]

namespace Course

/-- **Whatever is offered is what one of the tasks makes**, also where the run fails later. -/
lemma exists_task (h : Course offer d fault tasks s modules r s') :
    ∀ m ∈ modules, ∃ t ∈ tasks, t.Makes d m := by
  induction h with
  | finish => simp
  | broken _ => simp
  | refused hd _ => simpa using .inl ⟨_, hd, rfl⟩
  | taken hd _ _ ih =>
      refine List.forall_mem_cons.2 ⟨⟨_, List.mem_cons_self, _, hd, rfl⟩, fun m hm => ?_⟩
      obtain ⟨t, ht, hmakes⟩ := ih m hm
      exact ⟨t, List.mem_cons_of_mem _ ht, hmakes⟩

/-- **Where there was no fault, all tasks are done**: each has made the module offered for it, and
the summaries are those of these modules. -/
lemma of_ok (h : Course offer d fault tasks s modules r s') {summaries : List ModuleSummary}
    (hok : r.outcome = .ok summaries) :
    fault = none ∧ summaries = modules.map GeneratedModule.summary
      ∧ List.Forall₂ (Task.Makes d) tasks modules := by
  induction h generalizing summaries with
  | finish =>
      cases fault with
      | none => exact ⟨rfl, (Except.ok.inj hok).symm, .nil⟩
      | some fault => cases hok
  | broken _ => cases hok
  | refused _ _ => cases hok
  | taken hd _ _ ih =>
      obtain ⟨rest, hrest⟩ := outcome_map_eq_ok hok
      rw [after, map, hrest] at hok
      obtain ⟨hfault, rfl, hmakes⟩ := ih hrest
      obtain rfl := Except.ok.inj hok
      exact ⟨hfault, rfl, .cons ⟨_, hd, rfl⟩ hmakes⟩

/-- The sink is asked for what is offered and for nothing else. -/
lemma offerAll_eq (h : Course offer d fault tasks s modules r s') :
    (offerAll offer modules s).2 = s' := by
  induction h with
  | finish => rfl
  | broken _ => rfl
  | refused _ hoffer => rw [offerAll_cons, hoffer, offerAll_nil]
  | taken _ hoffer _ ih => rw [offerAll_cons, hoffer, ih]

end Course

end RunReport

end Netscribe
