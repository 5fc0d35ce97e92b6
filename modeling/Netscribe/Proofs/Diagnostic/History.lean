import Mathlib.Data.List.DropRight
import Mathlib.Tactic.Common
import Netscribe.Diagnostic.Log

/-!
# Histories of a log

A log is asked one thing after the other.  What waits in it and how many errors it has seen are two
pieces of state, and they part ways: draining empties the first and leaves the second.  So a log is
compared with its history alone, the list of all that it was asked, and whatever it answers at some
moment has to be told by what was asked before.

* `Log.Request`, `Log.Answer` — what a log is asked, and what it answers.
* `Log.serve`, `Log.serveAll` — one request, and a transcript of requests one after the other.
* `Log.emitted`, `Log.undrained` — what a history has emitted, and what it has not drained of that.
* `Log.expected` — the answer to a request, told by what was asked before.
* `Log.Accounts` — a log accounts for a history, which every request keeps.
* **`Log.serveAll_history`** — nothing is lost, and every answer is the expected one.
-/

namespace Netscribe.Log

/-! ## Requests and answers -/

/-- **What a log is asked.** -/
inductive Request where
  | emit (d : Diagnostic)
  | drain
  /-- What is waiting, without draining it. -/
  | pending
  | errorCount
  | hasErrors
  | count (s : Severity)
  deriving DecidableEq

/-- **What a log answers.** -/
inductive Answer where
  /-- The diagnostic was taken. -/
  | done
  | diagnostics (ds : List Diagnostic)
  | number (n : ℕ)
  | truth (b : Bool)
  deriving DecidableEq

/-- The answer to a request, and the log after it. -/
def serve (log : Log) : Request → Answer × Log
  | .emit d => (.done, log.emit d)
  | .drain => (.diagnostics log.drain.1, log.drain.2)
  | .pending => (.diagnostics log.pending, log)
  | .errorCount => (.number log.errorCount, log)
  | .hasErrors => (.truth log.hasErrors, log)
  | .count s => (.number (log.count s), log)

/-- **Serves requests one after the other**: the transcript has each with its answer, and the log is
the one in the end. -/
def serveAll (log : Log) : List Request → List (Request × Answer) × Log
  | [] => ([], log)
  | r :: rs => ((r, (log.serve r).1) :: (serveAll (log.serve r).2 rs).1,
      (serveAll (log.serve r).2 rs).2)

/-- What an entry of a transcript has handed out for good. -/
def handedOut : Request × Answer → List Diagnostic
  | (.drain, .diagnostics ds) => ds
  | _ => []

lemma handedOut_of_ne_drain {r : Request} (h : r ≠ .drain) (a : Answer) :
    handedOut (r, a) = [] := by
  cases r with
  | drain => exact absurd rfl h
  | _ => rfl

/-! ## Histories -/

/-- The diagnostic that a request emits. -/
def Request.emitted? : Request → Option Diagnostic
  | .emit d => some d
  | _ => none

/-- **All that a history has emitted**, in order. -/
def emitted (history : List Request) : List Diagnostic :=
  history.filterMap Request.emitted?

/-- **What a history has not drained**: all that was emitted after the last time. -/
def undrained (history : List Request) : List Diagnostic :=
  emitted (history.rtakeWhile fun r => r != .drain)

/-- **The answer to a request**, told by what was asked before it. -/
def expected (history : List Request) : Request → Answer
  | .emit _ => .done
  | .drain | .pending => .diagnostics (undrained history)
  | .errorCount => .number ((emitted history).countP Diagnostic.isError)
  | .hasErrors => .truth ((emitted history).any Diagnostic.isError)
  | .count s => .number ((undrained history).countP fun d => d.severity == s)

lemma emitted_concat (history : List Request) (r : Request) :
    emitted (history ++ [r]) = emitted history ++ r.emitted?.toList := by
  rw [emitted, List.filterMap_append]
  cases h : r.emitted? <;> simp [emitted, h]

lemma undrained_concat_drain (history : List Request) : undrained (history ++ [.drain]) = [] := by
  rw [undrained, List.rtakeWhile_concat_neg _ _ _ (by decide)]
  rfl

lemma undrained_concat (history : List Request) {r : Request} (h : r ≠ .drain) :
    undrained (history ++ [r]) = undrained history ++ r.emitted?.toList := by
  rw [undrained, List.rtakeWhile_concat_pos _ _ _ (by simpa using h), emitted_concat]
  rfl

/-! ## What a log keeps -/

/-- **A log accounts for a history**, of which it has handed out some diagnostics for good. -/
structure Accounts (log : Log) (taken : List Diagnostic) (history : List Request) : Prop where
  /-- Nothing is lost, and the order is kept. -/
  complete : taken ++ log.pending = emitted history
  pending : log.pending = undrained history
  errorCount : log.errorCount = (emitted history).countP Diagnostic.isError

namespace Accounts

variable {log : Log} {taken : List Diagnostic} {history : List Request}

lemma empty : Accounts .empty [] [] :=
  ⟨rfl, rfl, rfl⟩

lemma hasErrors (h : log.Accounts taken history) :
    log.hasErrors = (emitted history).any Diagnostic.isError := by
  rw [Log.hasErrors, h.errorCount, Bool.eq_iff_iff, decide_eq_true_iff, List.countP_pos_iff,
    List.any_eq_true]

lemma count (h : log.Accounts taken history) (s : Severity) :
    log.count s = (undrained history).countP fun d => d.severity == s := by
  rw [Log.count, h.pending]

/-- **A log that accounts for a history answers by it.** -/
lemma answer (h : log.Accounts taken history) (r : Request) :
    (log.serve r).1 = expected history r := by
  cases r with
  | emit d => rfl
  | drain => exact congrArg Answer.diagnostics h.pending
  | pending => exact congrArg Answer.diagnostics h.pending
  | errorCount => exact congrArg Answer.number h.errorCount
  | hasErrors => exact congrArg Answer.truth h.hasErrors
  | count s => exact congrArg Answer.number (h.count s)

/-- A question adds nothing to a history. -/
lemma ask (h : log.Accounts taken history) {r : Request} (hdrain : r ≠ .drain)
    (hemit : r.emitted? = none) : log.Accounts taken (history ++ [r]) where
  complete := by
    rw [h.complete, emitted_concat, hemit, Option.toList_none, List.append_nil]
  pending := by
    rw [h.pending, undrained_concat _ hdrain, hemit, Option.toList_none, List.append_nil]
  errorCount := by
    rw [h.errorCount, emitted_concat, hemit, Option.toList_none, List.append_nil]

lemma emit (h : log.Accounts taken history) (d : Diagnostic) :
    (log.emit d).Accounts taken (history ++ [.emit d]) where
  complete := by
    rw [emitted_concat, ← h.complete, List.append_assoc]
    rfl
  pending := by
    rw [undrained_concat _ (by simp), ← h.pending]
    rfl
  errorCount := by
    rw [emitted_concat, Request.emitted?, Option.toList_some, List.countP_append, ← h.errorCount,
      List.countP_singleton, Log.emit]
    dsimp only
    split <;> rfl

lemma drain (h : log.Accounts taken history) :
    log.drain.2.Accounts (taken ++ log.drain.1) (history ++ [.drain]) where
  complete := by
    rw [emitted_concat, ← h.complete]
    rfl
  pending := (undrained_concat_drain history).symm
  errorCount := by
    have hemitted : emitted (history ++ [.drain]) = emitted history :=
      (emitted_concat history .drain).trans (List.append_nil _)
    rw [hemitted]
    exact h.errorCount

/-- **Every request keeps a log accountable**, for a history that is longer by it. -/
lemma serve (h : log.Accounts taken history) (r : Request) :
    (log.serve r).2.Accounts (taken ++ handedOut (r, (log.serve r).1)) (history ++ [r]) := by
  cases r with
  | drain => exact h.drain
  | emit d =>
      rw [handedOut_of_ne_drain (by simp), List.append_nil]
      exact h.emit d
  | _ =>
      rw [handedOut_of_ne_drain (by simp), List.append_nil]
      exact h.ask (by simp) rfl

/-- **Requests one after the other** keep it so, and each is answered by what was asked before. -/
theorem serveAll (h : log.Accounts taken history) (rs : List Request) :
    (log.serveAll rs).2.Accounts (taken ++ (log.serveAll rs).1.flatMap handedOut) (history ++ rs)
      ∧ ∀ i : ℕ, (log.serveAll rs).1[i]?
        = rs[i]?.map fun r => (r, expected (history ++ rs.take i) r) := by
  induction rs generalizing log taken history with
  | nil =>
      refine ⟨?_, fun i => rfl⟩
      rw [List.append_nil]
      exact (List.append_nil taken).symm ▸ h
  | cons r rs ih =>
      obtain ⟨haccounts, hanswers⟩ := ih (h.serve r)
      refine ⟨?_, fun i => ?_⟩
      · rwa [List.append_assoc, List.append_assoc, List.singleton_append] at haccounts
      · cases i with
        | zero => simp [Log.serveAll, h.answer r]
        | succ i => simpa [Log.serveAll] using hanswers i

end Accounts

/-- **A log loses nothing and counts right**, whatever it is asked and however often it is drained.
What the drains have handed out and what is waiting then are the diagnostics that were emitted, in that
order; the count of errors goes over all of them, drained or not, and the counts by severity go over
those that were emitted after the last drain.  On the way every request was answered by what was asked
before it. -/
theorem serveAll_history (requests : List Request) :
    let transcript := (serveAll .empty requests).1
    let log := (serveAll .empty requests).2
    transcript.flatMap handedOut ++ log.pending = emitted requests
      ∧ log.pending = undrained requests
      ∧ log.errorCount = (emitted requests).countP (fun d => d.severity == .error)
      ∧ (log.hasErrors = true ↔ ∃ d ∈ emitted requests, d.severity = .error)
      ∧ (∀ s, log.count s = (undrained requests).countP fun d => d.severity == s)
      ∧ ∀ i : ℕ, transcript[i]? = requests[i]?.map fun r => (r, expected (requests.take i) r) := by
  intro transcript log
  obtain ⟨haccounts, hanswers⟩ := Accounts.empty.serveAll requests
  rw [List.nil_append, List.nil_append] at haccounts
  refine ⟨haccounts.complete, haccounts.pending, haccounts.errorCount, ?_, haccounts.count, hanswers⟩
  rw [haccounts.hasErrors, List.any_eq_true]
  simp only [Diagnostic.isError, Severity.isError, beq_iff_eq]

end Netscribe.Log
