import Netscribe.Diagnostic.Json
import Netscribe.Diagnostic.Render
import Netscribe.Generation.Run
import Netscribe.Json.Writer
/-!
# What a command prints

* `Output` — the exit code and the two texts a command leaves behind.
* `diagnosticsText`, `resultLine` — diagnostics for a reader.
* `reportText` — a run for a program.
-/

namespace Netscribe

/-- **What a command leaves behind.** -/
structure Output where
  code : UInt8 := 0
  /-- What is printed as a result. -/
  stdout : String := ""
  /-- What is printed for the user. -/
  stderr : String := ""
  deriving DecidableEq

/-- Lines, each ended by a line feed. -/
def linesText (lines : List String) : String :=
  String.join (lines.map (· ++ "\n"))

/-- **Diagnostics for a reader**, each followed by an empty line. -/
def diagnosticsText (colour : Bool) (ds : List Diagnostic) : String :=
  linesText (ds.map (Diagnostic.render colour))

/-- **The line that counts diagnostics.** -/
def resultLine (ds : List Diagnostic) : String :=
  let count (s : Severity) := toString (ds.countP fun d => d.severity == s)
  "   Result: " ++ count .error ++ " error(s), " ++ count .severeWarning ++
    " severe warning(s), " ++ count .warning ++ " warning(s)"

/-- **A run for a program**: its summary, or `null`, and its diagnostics. -/
def reportText (report : RunReport Summary) : String :=
  (Json.record [
    ("summary", .nullable Summary.toJson report.outcome.toOption),
    ("diagnostics", .array (report.diagnostics.map Diagnostic.toJson))]).renderIndented

end Netscribe
