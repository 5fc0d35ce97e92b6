import Netscribe.Generation.Fault
/-!
# Attempts

A part of a run warns of some things, in order, and then gives a value or ends with a fault.  A
fault is reported once, after every warning, wherever it arose.

* `Attempt` — the warnings and the outcome.
* `Attempt.warn`, `Attempt.fail` — one warning, and a fault.
* `Attempt.reports` — what the log gets.
-/

namespace Netscribe

/-- **An attempt at a value**: what it warns of, and then the value or a fault. -/
structure Attempt (α : Type) where
  /-- What it warns of, in order. -/
  warnings : List Warning
  /-- The value, or the fault that ends the run. -/
  outcome : Except Fault α

namespace Attempt

variable {α β : Type}

def succeed (a : α) : Attempt α :=
  ⟨[], .ok a⟩

/-- Warns, and goes on with the next part where this one did not fail. -/
def andThen (x : Attempt α) (f : α → Attempt β) : Attempt β :=
  match x.outcome with
  | .error fault => ⟨x.warnings, .error fault⟩
  | .ok a => ⟨x.warnings ++ (f a).warnings, (f a).outcome⟩

instance : Monad Attempt where
  pure := succeed
  bind := andThen

def warn (w : Warning) : Attempt Unit :=
  ⟨[w], .ok ()⟩

def fail (fault : Fault) : Attempt α :=
  ⟨[], .error fault⟩

/-- A value where there is one, and a fault otherwise. -/
def orFail (fault : Fault) : Option α → Attempt α
  | some a => succeed a
  | none => fail fault

/-- The report of the fault, where there is one. -/
def faultReport (x : Attempt α) : List Diagnostic :=
  match x.outcome with
  | .ok _ => []
  | .error fault => [fault.diagnostic]

/-- **What the log gets** from an attempt made at a scope: the warnings and then the fault. -/
def reports (scope : String) (x : Attempt α) : List Diagnostic :=
  (x.warnings.map Warning.diagnostic ++ x.faultReport).map (Diagnostic.atScope scope)

end Attempt

end Netscribe
