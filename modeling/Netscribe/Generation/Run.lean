import Netscribe.Generation.Module
import Netscribe.Generation.Plan
/-!
# Runs

A run writes the definitions of a plan in one language, one after the other, and offers each to
whatever takes them.  It ends at the first fault: in a definition, at a module that is not taken, or
where the plan itself ended.

* `Summary` — what a successful run has written.
* `RunReport` — what a run tells: its diagnostics, and the summary or the fault.
* `RunReport.ofTasks` — carrying out a list of tasks.
* `Context.run` — the run of a design.
-/

namespace Netscribe

/-- **What a successful run has written.** -/
structure Summary where
  /-- The name of the top definition. -/
  top : String
  dialect : Dialect
  modules : List ModuleSummary
  deriving DecidableEq

/-- The summary in a report. -/
def Summary.toJson (s : Summary) : Json :=
  .record [
    ("top", .text s.top),
    ("dialect", .text s.dialect.name),
    ("modules", .array (s.modules.map ModuleSummary.toJson))]

/-- **What a run tells.** -/
structure RunReport (α : Type) where
  diagnostics : List Diagnostic
  /-- The result, or the fault that ended the run. -/
  outcome : Except Fault α

namespace RunReport

variable {α β : Type} {m : Type → Type} [Monad m]

/-- The report of a run that ended at a fault with a scope. -/
def failed (scope : String) (fault : Fault) : RunReport α :=
  ⟨[fault.diagnostic.atScope scope], .error fault⟩

/-- The report with some diagnostics in front. -/
def after (earlier : List Diagnostic) (r : RunReport α) : RunReport α :=
  { r with diagnostics := earlier ++ r.diagnostics }

/-- The report of another result. -/
def map (f : α → β) (r : RunReport α) : RunReport β :=
  ⟨r.diagnostics, r.outcome.map f⟩

/-- The report of a run without any task left. -/
def ofEnd : Option (List String × Fault) → RunReport (List ModuleSummary)
  | none => ⟨[], .ok []⟩
  | some (path, fault) => failed (scopeText path) fault

/-- **Carries out tasks** up to the first fault; `fault` is the one at which the plan ended. -/
def ofTasks (offer : GeneratedModule → m (Except SinkError Unit)) (d : Dialect)
    (fault : Option (List String × Fault)) : List Task → m (RunReport (List ModuleSummary))
  | [] => return ofEnd fault
  | task :: tasks => do
    let reports := task.definition.reports task.scope
    match task.definition.outcome with
    | .error fault => return ⟨reports, .error fault⟩
    | .ok definition =>
      let generated := GeneratedModule.ofDefinition d task.directory definition
      match ← offer generated with
      | .error cause => return (failed task.scope (.sink cause)).after reports
      | .ok () =>
        let rest ← ofTasks offer d fault tasks
        return (rest.map (generated.summary :: ·)).after reports

end RunReport

namespace Context

variable {m : Type → Type} [Monad m]

/-- **The run of a design** in a language.  A missing top circuit is reported at `scope`, everything
else where it arises. -/
def run (ctx : Context) (scope : String) (d : Dialect)
    (offer : GeneratedModule → m (Except SinkError Unit)) : m (RunReport Summary) :=
  match ctx.top.outcome with
  | .error fault => return .failed scope fault
  | .ok top => do
    let plan := ctx.plan top
    let report ← RunReport.ofTasks offer d plan.fault plan.tasks
    return report.map (⟨Names.definition top.name false, d, ·⟩)

end Context

end Netscribe
