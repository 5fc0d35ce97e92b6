import Netscribe.Command.Generate
import Netscribe.Command.Inspect
/-!
# Running a command line

* `Output.ofError` — what a command leaves behind that ends without result.
* `Invocation.run` — what a command line asks for, done.
* `runArguments` — a command line, read and done.
-/

namespace Netscribe

variable {m : Type → Type} [Monad m]

/-- What a command leaves behind that ends without result. -/
def Output.ofError (cause : CommandError) : Output :=
  { code := 1, stderr := linesText ["error: " ++ cause.message] }

/-- Are colours used, given whether a terminal reads them? -/
def ColorChoice.isOn (onTerminal : Bool) : ColorChoice → Bool
  | .auto => onTerminal
  | .always => true
  | .never => false

/-- **Does what a command line asks for.** -/
def Invocation.run (fs : FileSystem m) (onTerminal : Bool) (i : Invocation) : m Output := do
  match ← Workspace.open fs i.config with
  | .error cause => return .ofError cause
  | .ok w =>
    let colour := i.color.isOn onTerminal
    match i.action with
    | .generate dialect outputDirectory format =>
      generate fs colour i.quiet i.verbose dialect outputDirectory format w
    | .inspect circuit dialect =>
      match inspect colour i.quiet circuit dialect w with
      | .error cause => return .ofError cause
      | .ok output => return output

/-- How the command line is used. -/
def usage : List String :=
  ["usage: circa [OPTIONS] <COMMAND>",
   "",
   "commands:",
   "  generate [-d|--dialect vhdl|verilog] [-o|--output-dir DIR] [-f|--format text|json]",
   "  inspect [--circuit NAME] [-d|--dialect vhdl|verilog]",
   "",
   "options: -q|--quiet, -v|--verbose, --color auto|always|never, --config PATH"]

/-- **Reads a command line and does what it asks for.** -/
def runArguments (fs : FileSystem m) (onTerminal : Bool) (args : List String) : m Output :=
  match Invocation.ofArguments? args with
  | none => return { code := 2, stderr := linesText usage }
  | some i => i.run fs onTerminal

end Netscribe
