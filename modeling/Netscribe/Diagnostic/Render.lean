import Netscribe.Diagnostic.Basic
/-!
# Diagnostics on a terminal

A diagnostic takes one line for its severity, code and message, one for its scope where it has one,
and one for each note and each help.

* `Diagnostic.render` — the lines, each ended by a line feed.
-/

namespace Netscribe

/-- The number of a severity's terminal colour. -/
def Severity.colour : Severity → String
  | .note => "36"
  | .warning => "33"
  | .severeWarning => "35"
  | .error => "31"

namespace Diagnostic

/-- A text in the bold colour of a severity, where colours are wanted. -/
def paint (colour : Bool) (s : Severity) (text : String) : String :=
  if colour then "\x1b[1;" ++ s.colour ++ "m" ++ text ++ "\x1b[0m" else text

/-- **A diagnostic as the user sees it.** -/
def render (colour : Bool) (d : Diagnostic) : String :=
  paint colour d.severity (d.severity.text ++ "[" ++ d.code.text ++ "]") ++ ": " ++ d.message ++ "\n"
    ++ (if d.scope.isEmpty then "" else "  --> " ++ d.scope ++ "\n")
    ++ String.join (d.notes.map fun note => "   = note: " ++ note ++ "\n")
    ++ String.join (d.help.map fun help => "   = help: " ++ help ++ "\n")

end Diagnostic

end Netscribe
