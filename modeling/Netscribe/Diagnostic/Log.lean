import Netscribe.Diagnostic.Basic
/-!
# The log of a run

Diagnostics are collected in the order they are raised.  A log may be drained between runs; how
many errors it has seen is remembered all the same.

* `Log` — what is waiting, and the number of errors ever seen.
* `Log.emit`, `Log.drain` — adding one, and taking all.
-/

namespace Netscribe

/-- **A log of diagnostics.** -/
structure Log where
  /-- What was emitted and not drained since, in order. -/
  pending : List Diagnostic := []
  /-- How many errors were ever emitted. -/
  errorCount : Nat := 0
  deriving DecidableEq

namespace Log

def empty : Log := {}

def emit (log : Log) (d : Diagnostic) : Log :=
  { pending := log.pending ++ [d],
    errorCount := if d.isError then log.errorCount + 1 else log.errorCount }

/-- Adds some diagnostics, in order. -/
def emitAll (log : Log) (ds : List Diagnostic) : Log :=
  ds.foldl emit log

/-- Takes everything that is waiting; the count of errors stays. -/
def drain (log : Log) : List Diagnostic × Log :=
  (log.pending, { log with pending := [] })

/-- Was an error ever emitted? -/
def hasErrors (log : Log) : Bool :=
  0 < log.errorCount

/-- How many waiting diagnostics have a severity. -/
def count (log : Log) (s : Severity) : Nat :=
  log.pending.countP fun d => d.severity == s

end Log

end Netscribe
