import Netscribe.Command.Arguments
import Netscribe.Command.Output
import Netscribe.Command.Workspace
import Netscribe.Generation.FileOutput
/-!
# Generating

The command that writes the modules of a project's design to files and reports on it.

* `generate` — the command.
-/

namespace Netscribe

variable {m : Type → Type} [Monad m]

/-- What is said about the modules of a successful run. -/
def modulesText (verbose : Bool) (directory : String) (summary : Summary) : String :=
  let emitted := summary.modules.map fun s =>
    "     Emitted " ++ s.directory ++ "/" ++ s.name ++ " [" ++ s.digest.text ++ "]"
  let wrote :=
    "     Wrote " ++ toString summary.modules.length ++ " module(s) to " ++ directory
  linesText ((if verbose then emitted else []) ++ [wrote])

/-- A run for a reader. -/
def runText (colour quiet verbose : Bool) (directory : String) (report : RunReport Summary) :
    String :=
  let modules :=
    match report.outcome with
    | .ok summary => modulesText verbose directory summary
    | .error _ => ""
  diagnosticsText colour report.diagnostics
    ++ if quiet then "" else modules ++ linesText [resultLine report.diagnostics]

/-- The exit code of a run. -/
def runCode (report : RunReport Summary) : UInt8 :=
  match report.outcome with
  | .ok _ => 0
  | .error _ => 1

/-- What a run leaves behind, after what was said when it began. -/
def runOutput (colour quiet verbose : Bool) (format : ReportFormat) (directory begun : String)
    (report : RunReport Summary) : Output :=
  match format with
  | .text =>
    { code := runCode report, stderr := begun ++ runText colour quiet verbose directory report }
  | .json =>
    { code := runCode report, stderr := begun, stdout := linesText [reportText report] }

/-- The modules of a workspace are made with the built-in primitives. -/
def Workspace.context (w : Workspace) : Context :=
  { design := w.design, systemClock := w.project.systemClock }

/-- **Writes the modules of a workspace** and reports on it; the user may ask for another language
or directory than the project does. -/
def generate (fs : FileSystem m) (colour quiet verbose : Bool) (dialect : Option Dialect)
    (outputDirectory : Option String) (format : ReportFormat) (w : Workspace) : m Output := do
  let dialect := dialect.getD w.project.dialect
  let directory := Path.join w.directory (outputDirectory.getD w.project.outputDirectory)
  let begun :=
    if quiet then ""
    else linesText ["   Generating " ++ w.project.top ++ " (" ++ dialect.name ++ ")"]
  let (report, _) ← (w.context.run "" dialect (FileOutput.offer fs directory dialect)).run []
  return runOutput colour quiet verbose format directory begun report

end Netscribe
