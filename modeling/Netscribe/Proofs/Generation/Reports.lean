import Netscribe.Diagnostic.Log
import Netscribe.Proofs.Generation.Machine
import Netscribe.Proofs.Generation.Offers

/-!
# One report for each fault

A run that fails has reported one error, the last of its diagnostics: the fault it fails with, at
the scope of the circuit that was being processed.  Everything reported before is a warning, and so
is everything that a run which succeeds reports.

* `Warning.isError_diagnostic` — no warning is an error.
* `RunReport.Silent`, `RunReport.FailsAt` — a report without errors, and one with a last one.
* `RunReport.ofTasks_reports` — the report of tasks tells what becomes of them.
* `Context.run_ends` — a run tells how the machine ends.
* **`Context.run_reports`** — a run reports its fault once, where it arose.
-/

namespace Netscribe

lemma Warning.isError_diagnostic (w : Warning) : w.diagnostic.isError = false := by
  cases w with
  | unconnectedClock label isSystemClock => cases isSystemClock <;> rfl
  | _ => rfl

/-! ## Logs -/

namespace Log

lemma pending_emitAll (log : Log) (ds : List Diagnostic) :
    (log.emitAll ds).pending = log.pending ++ ds := by
  induction ds generalizing log with
  | nil => exact (List.append_nil _).symm
  | cons d ds ih =>
      show ((log.emit d).emitAll ds).pending = _
      rw [ih, emit, List.append_assoc, List.singleton_append]

lemma errorCount_emitAll (log : Log) (ds : List Diagnostic) :
    (log.emitAll ds).errorCount = log.errorCount + ds.countP Diagnostic.isError := by
  induction ds generalizing log with
  | nil => rfl
  | cons d ds ih =>
      show ((log.emit d).emitAll ds).errorCount = _
      rw [ih, emit, List.countP_cons]
      cases d.isError
      · simp
      · simp only [if_true]
        omega

end Log

/-! ## Reports -/

namespace RunReport

variable {α β : Type} {r : RunReport α}

/-- **A report without errors**, of a run that has a result. -/
structure Silent (r : RunReport α) : Prop where
  succeeds : ∃ a, r.outcome = .ok a
  warnings : ∀ x ∈ r.diagnostics, x.isError = false

/-- **A report of a fault** that arose at the end of a path: the last diagnostic, and the only
error. -/
structure FailsAt (r : RunReport α) (path : List String) (fault : Fault) : Prop where
  fails : r.outcome = .error fault
  last : ∃ earlier, r.diagnostics = earlier ++ [fault.diagnostic.atScope (scopeText path)]
    ∧ ∀ x ∈ earlier, x.isError = false

lemma failsAt_failed (path : List String) (fault : Fault) :
    (failed (scopeText path) fault : RunReport α).FailsAt path fault :=
  ⟨rfl, [], rfl, by simp⟩

lemma Silent.map (h : r.Silent) (f : α → β) : (r.map f).Silent := by
  obtain ⟨a, ha⟩ := h.succeeds
  exact ⟨⟨f a, by rw [RunReport.map, ha]; rfl⟩, h.warnings⟩

lemma FailsAt.map {path : List String} {fault : Fault} (h : r.FailsAt path fault) (f : α → β) :
    (r.map f).FailsAt path fault :=
  ⟨by rw [RunReport.map, h.fails]; rfl, h.last⟩

lemma Silent.after {earlier : List Diagnostic} (h : r.Silent)
    (hearlier : ∀ x ∈ earlier, x.isError = false) : (r.after earlier).Silent := by
  refine ⟨h.succeeds, fun x hx => ?_⟩
  exact (List.mem_append.1 hx).elim (hearlier x) (h.warnings x)

lemma FailsAt.after {earlier : List Diagnostic} {path : List String} {fault : Fault}
    (h : r.FailsAt path fault) (hearlier : ∀ x ∈ earlier, x.isError = false) :
    (r.after earlier).FailsAt path fault := by
  obtain ⟨earlier', hlast, hearlier'⟩ := h.last
  refine ⟨h.fails, earlier ++ earlier', ?_, fun x hx => ?_⟩
  · rw [RunReport.after, hlast, List.append_assoc]
  · exact (List.mem_append.1 hx).elim (hearlier x) (hearlier' x)

/-- A definition that is made reports warnings only. -/
lemma isError_reports {definition : Attempt Definition} {m : Definition}
    (h : definition.outcome = .ok m) (scope : String) :
    ∀ x ∈ definition.reports scope, x.isError = false := by
  intro x hx
  rw [Attempt.reports, Attempt.faultReport, h] at hx
  obtain ⟨y, hy, rfl⟩ := List.mem_map.1 hx
  obtain ⟨w, -, rfl⟩ := List.mem_map.1 (by simpa using hy)
  exact w.isError_diagnostic

/-- A definition with a fault reports it after its warnings. -/
lemma failsAt_of_definition {definition : Attempt Definition} {fault : Fault}
    (h : definition.outcome = .error fault) (path : List String) :
    (⟨definition.reports (scopeText path), .error fault⟩ : RunReport α).FailsAt path fault := by
  refine ⟨rfl, (definition.warnings.map Warning.diagnostic).map (Diagnostic.atScope (scopeText path)),
    ?_, fun x hx => ?_⟩
  · simp only [Attempt.reports, Attempt.faultReport, h, List.map_append]
    rfl
  · obtain ⟨y, hy, rfl⟩ := List.mem_map.1 hx
    obtain ⟨w, -, rfl⟩ := List.mem_map.1 hy
    exact w.isError_diagnostic

/-- A report tells a result: no error, or the fault where it arose. -/
def Tells {σ : Type} (r : RunReport α) : Except (List String × Fault) σ → Prop
  | .ok _ => r.Silent
  | .error (path, fault) => r.FailsAt path fault

lemma Tells.after {σ : Type} {result : Except (List String × Fault) σ} {earlier : List Diagnostic}
    (h : r.Tells result) (hearlier : ∀ x ∈ earlier, x.isError = false) :
    (r.after earlier).Tells result := by
  cases result with
  | ok s => exact Silent.after h hearlier
  | error e => exact FailsAt.after h hearlier

lemma Tells.map {σ : Type} {result : Except (List String × Fault) σ} (h : r.Tells result)
    (f : α → β) : (r.map f).Tells result := by
  cases result with
  | ok s => exact Silent.map h f
  | error e => exact FailsAt.map h f

variable {σ : Type} {offer : GeneratedModule → StateM σ (Except SinkError Unit)} {d : Dialect}

/-- A course tells what becomes of the tasks when they are carried out. -/
lemma Course.tells {fault : Option (List String × Fault)} {tasks : List Task} {s s' : σ}
    {modules : List GeneratedModule} {r : RunReport (List ModuleSummary)}
    (h : Course offer d fault tasks s modules r s') :
    r.Tells (Context.carryOut d offer fault tasks s) := by
  induction h with
  | finish =>
      cases fault with
      | none =>
          refine ⟨⟨[], rfl⟩, fun x hx => ?_⟩
          cases hx
      | some fault => exact failsAt_failed fault.1 fault.2
  | @broken task _ _ _ hd =>
      rw [Context.carryOut, Context.write, hd]
      exact failsAt_of_definition hd task.path
  | @refused task _ _ _ _ cause hd hoffer =>
      rw [Context.carryOut, Context.write, hd]
      simp only [hoffer]
      exact (failsAt_failed task.path (.sink cause)).after (isError_reports hd task.scope)
  | @taken task _ _ _ _ _ _ _ hd hoffer _ ih =>
      rw [Context.carryOut, Context.write, hd]
      simp only [hoffer]
      exact (ih.map _).after (isError_reports hd task.scope)

/-- **The report of tasks tells what becomes of them** when they are carried out. -/
theorem ofTasks_reports (fault : Option (List String × Fault)) (tasks : List Task) (s : σ) :
    (ofTasks offer d fault tasks s).1.Tells (Context.carryOut d offer fault tasks s) := by
  obtain ⟨modules, hcourse, -⟩ := exists_course offer d fault tasks s
  exact hcourse.tells

end RunReport

/-! ## Runs -/

namespace Context

variable {ctx : Context} {σ : Type}

/-- **A run tells how the machine ends**, from entering the top circuit on. -/
theorem run_ends (hacyclic : ctx.design.Acyclic) {top : Circuit}
    (htop : ctx.design.topCircuit? = some top) (scope : String) (d : Dialect)
    (offer : GeneratedModule → StateM σ (Except SinkError Unit)) (s : σ) :
    ∃ handled result, (ctx.run scope d offer s).1.Tells result
      ∧ ctx.Ends d offer ⟨[.enter [Identifier.ofLabel top.name] ctx.design.top false top], [], s⟩ []
          handled result := by
  obtain ⟨tasks, htasks, hends⟩ := plan_follows d offer htop hacyclic
  rw [run_of_top htop, htasks]
  exact ⟨_, _, (RunReport.ofTasks_reports _ tasks s).map _, hends s⟩

/-- The same for a design that may have no top: the run fails outside of every circuit then. -/
lemma run_tells (hacyclic : ctx.design.Acyclic) (d : Dialect)
    (offer : GeneratedModule → StateM σ (Except SinkError Unit)) (s : σ) :
    ∃ result : Except (List String × Fault) σ, (ctx.run "" d offer s).1.Tells result
      ∧ ∀ path fault, result = .error (path, fault) →
        (ctx.design.topCircuit? = none ∧ path = [])
        ∨ ∃ top, ctx.design.topCircuit? = some top
          ∧ ctx.Faults d offer
              ⟨[.enter [Identifier.ofLabel top.name] ctx.design.top false top], [], s⟩ path fault := by
  cases htop : ctx.design.topCircuit? with
  | none =>
      -- there is no circuit to be processed, so the path is empty
      refine ⟨.error ([], .missingCircuit "" ctx.design.top), ?_, ?_⟩
      · rw [run, Context.top, htop]
        exact RunReport.failsAt_failed [] _
      · rintro path fault ⟨⟩
        exact .inl ⟨rfl, rfl⟩
  | some top =>
      obtain ⟨handled, result, htells, hends⟩ := run_ends hacyclic htop "" d offer s
      refine ⟨result, htells, fun path fault h => .inr ⟨top, rfl, ?_⟩⟩
      rwa [h] at hends

lemma severity_ne_error {x : Diagnostic} (h : x.isError = false) : x.severity ≠ .error := by
  intro hx
  rw [Diagnostic.isError, hx] at h
  cases h

/-- What a run that fails adds to a log. -/
lemma emitAll_of_failsAt {α : Type} {r : RunReport α} {path : List String} {fault : Fault}
    (h : r.FailsAt path fault) (log : Log) :
    (log.emitAll r.diagnostics).errorCount = log.errorCount + 1
      ∧ ∃ earlier last, r.diagnostics = earlier ++ [last] ∧ (∀ x ∈ earlier, x.severity ≠ .error)
        ∧ last.severity = .error ∧ last.code = fault.code ∧ last.message = fault.message
        ∧ last.scope = String.intercalate "/" path := by
  obtain ⟨earlier, hlast, hearlier⟩ := h.last
  have hnone : earlier.countP Diagnostic.isError = 0 :=
    List.countP_eq_zero.2 fun x hx => by simp [hearlier x hx]
  refine ⟨?_, earlier, _, hlast, fun x hx => severity_ne_error (hearlier x hx), rfl, rfl, rfl, rfl⟩
  rw [Log.errorCount_emitAll, hlast, List.countP_append, hnone]
  rfl

lemma emitAll_of_silent {α : Type} {r : RunReport α} (h : r.Silent) (log : Log) :
    (log.emitAll r.diagnostics).errorCount = log.errorCount
      ∧ ∀ x ∈ r.diagnostics, x.severity ≠ .error := by
  have hnone : r.diagnostics.countP Diagnostic.isError = 0 :=
    List.countP_eq_zero.2 fun x hx => by simp [h.warnings x hx]
  refine ⟨?_, fun x hx => severity_ne_error (h.warnings x hx)⟩
  rw [Log.errorCount_emitAll, hnone, Nat.add_zero]

/-- **A run reports its fault once, where it arose**, whatever the log had before and whatever the
sink does.  If it fails, the last diagnostic that it adds is an error and the only one, and says
what the fault says; its scope is empty if there is no top circuit, and else the path of the circuit
that is being processed when the fault arises, the only fault and the only path that the machine can
come to.  If it succeeds, it adds no error. -/
theorem run_reports (hacyclic : ctx.design.Acyclic) (d : Dialect)
    (offer : GeneratedModule → StateM σ (Except SinkError Unit)) (s : σ) (log : Log) :
    ∃ added, (log.emitAll (ctx.run "" d offer s).1.diagnostics).pending = log.pending ++ added
      ∧ (∀ summary, (ctx.run "" d offer s).1.outcome = .ok summary →
        (log.emitAll (ctx.run "" d offer s).1.diagnostics).errorCount = log.errorCount
        ∧ ∀ x ∈ added, x.severity ≠ .error)
      ∧ ∀ fault, (ctx.run "" d offer s).1.outcome = .error fault →
        (log.emitAll (ctx.run "" d offer s).1.diagnostics).errorCount = log.errorCount + 1
        ∧ ∃ earlier last, added = earlier ++ [last] ∧ (∀ x ∈ earlier, x.severity ≠ .error)
          ∧ last.severity = .error ∧ last.code = fault.code ∧ last.message = fault.message
          ∧ ((ctx.design.topCircuit? = none ∧ last.scope = "")
            ∨ ∃ top path, ctx.design.topCircuit? = some top
              ∧ (∀ path' fault', ctx.Faults d offer
                  ⟨[.enter [Identifier.ofLabel top.name] ctx.design.top false top], [], s⟩ path' fault'
                ↔ path' = path ∧ fault' = fault)
              ∧ last.scope = String.intercalate "/" path) := by
  obtain ⟨result, htells, harises⟩ := run_tells hacyclic d offer s
  refine ⟨_, Log.pending_emitAll log _, fun summary hok => ?_, fun fault herror => ?_⟩
  · cases result with
    | ok s' => exact emitAll_of_silent htells log
    | error e => cases htells.fails.symm.trans hok
  · cases result with
    | ok s' =>
        obtain ⟨summary, hok⟩ := htells.succeeds
        cases herror.symm.trans hok
    | error e =>
        obtain ⟨path, fault'⟩ := e
        obtain rfl := Except.error.inj (herror.symm.trans htells.fails)
        obtain ⟨hcount, earlier, last, hlast, hearlier, hseverity, hcode, hmessage, hscope⟩ :=
          emitAll_of_failsAt htells log
        refine ⟨hcount, earlier, last, hlast, hearlier, hseverity, hcode, hmessage, ?_⟩
        rcases harises path fault rfl with ⟨hnone, rfl⟩ | ⟨top, htop, hfaults⟩
        · exact .inl ⟨hnone, hscope⟩
        · refine .inr ⟨top, path, htop, fun path' fault' => ⟨fun hfaults' => ?_, ?_⟩, hscope⟩
          · exact hfaults'.unique hfaults
          · rintro ⟨rfl, rfl⟩
            exact hfaults

/-- A design with an instance, two levels down, that has no terminal for the pin of its circuit. -/
def unboundPin : Context where
  design := {
    circuits := #[
      { name := "leaf", netlist := {
          inputs := [{ label := "A", terminals := [.unconnected .output 1] }] } },
      { name := "middle", netlist := {
          instances := [{ label := "u2", kind := .instance 0 false }] } },
      { name := "main", netlist := {
          instances := [{ label := "u1", kind := .instance 1 false }] } }]
    top := 2 }

/-- The fault is reported for the circuit that has the instance. -/
theorem run_reports_unboundPin :
    unboundPin.design.Acyclic
    ∧ (unboundPin.run "" .vhdl takeAll ()).1.outcome = .error (.unresolvedPin "u2" "A")
    ∧ ∃ last path, (unboundPin.run "" .vhdl takeAll ()).1.diagnostics = [last]
      ∧ last.code = ⟨.error, 303⟩ ∧ last.scope = "main/u1"
      ∧ unboundPin.Faults .vhdl takeAll
          ⟨[.enter ["main"] 2 false unboundPin.design.circuits[2]], [], ()⟩ path
          (.unresolvedPin "u2" "A")
      ∧ last.scope = String.intercalate "/" path := by
  have hacyclic : unboundPin.design.Acyclic := Design.acyclic_of_lt (by decide)
  have herror : (unboundPin.run "" .vhdl takeAll ()).1.outcome
      = .error (.unresolvedPin "u2" "A") := by rfl
  have hdiagnostics : (unboundPin.run "" .vhdl takeAll ()).1.diagnostics
      = [(Fault.unresolvedPin "u2" "A").diagnostic.atScope "main/u1"] := by rfl
  obtain ⟨added, hadded, -, hfails⟩ := run_reports hacyclic .vhdl takeAll () {}
  obtain ⟨-, earlier, last, rfl, -, -, -, -, harises⟩ := hfails _ herror
  rw [Log.pending_emitAll, hdiagnostics] at hadded
  have hone : [] ++ [(Fault.unresolvedPin "u2" "A").diagnostic.atScope "main/u1"]
      = earlier ++ [last] := List.append_cancel_left hadded
  obtain rfl := List.cons.inj (List.append_inj' hone rfl).2 |>.1
  rcases harises with ⟨hnone, -⟩ | ⟨top, path, htop, hfaults, hscope⟩
  · cases hnone
  · obtain rfl : unboundPin.design.circuits[2] = top := Option.some.inj htop
    exact ⟨hacyclic, herror, _, path, hdiagnostics, rfl, rfl, (hfaults _ _).2 ⟨rfl, rfl⟩, hscope⟩

end Context

end Netscribe
