/-!
# Diagnostics

What a run has to say about a design: how grave it is, which code it has, and where in the
hierarchy it arose.

* `Severity` — four degrees, in ascending order.
* `Diagnostic.Code` — a category letter and a number.
* `Diagnostic` — the message with its code, scope, notes and help.
-/

namespace Netscribe

/-- **How grave a diagnostic is.** -/
inductive Severity where
  | note
  /-- A possible problem that does not change the output. -/
  | warning
  /-- The generated design is incomplete, and generation goes on. -/
  | severeWarning
  /-- A failure that ends the run. -/
  | error
  deriving DecidableEq

namespace Severity

/-- Every severity, the least grave first. -/
def all : List Severity :=
  [.note, .warning, .severeWarning, .error]

/-- The place in the ascending order. -/
def rank : Severity → Nat
  | .note => 0
  | .warning => 1
  | .severeWarning => 2
  | .error => 3

/-- Only an error ends the run. -/
def isError (s : Severity) : Bool :=
  s == .error

/-- The name shown to the user. -/
def text : Severity → String
  | .note => "note"
  | .warning => "warning"
  | .severeWarning => "severe warning"
  | .error => "error"

def tag : Severity → String
  | .note => "Note"
  | .warning => "Warning"
  | .severeWarning => "SevereWarning"
  | .error => "Error"

end Severity

namespace Diagnostic

/-- What kind of code a diagnostic has. -/
inductive Category where
  | error
  | warning
  | info
  deriving DecidableEq

namespace Category

def all : List Category :=
  [.error, .warning, .info]

/-- The letter in front of a code's number. -/
def letter : Category → Char
  | .error => 'E'
  | .warning => 'W'
  | .info => 'I'

def tag : Category → String
  | .error => "Error"
  | .warning => "Warning"
  | .info => "Info"

end Category

/-- The code of a diagnostic. -/
structure Code where
  /-- What kind of code it is. -/
  category : Category
  number : UInt16
  deriving DecidableEq

/-- A code is shown as its letter and at least three digits. -/
def Code.text (c : Code) : String :=
  let digits := Nat.toDigits 10 c.number.toNat
  String.ofList (c.category.letter :: (List.replicate (3 - digits.length) '0' ++ digits))

end Diagnostic

/-- **A diagnostic.** -/
structure Diagnostic where
  severity : Severity
  code : Diagnostic.Code
  message : String
  /-- The path in the hierarchy, empty outside of it. -/
  scope : String := ""
  notes : List String := []
  /-- What the user may do about it. -/
  help : List String := []
  deriving DecidableEq

namespace Diagnostic

def isError (d : Diagnostic) : Bool :=
  d.severity.isError

/-- The same diagnostic, raised at a scope. -/
def atScope (scope : String) (d : Diagnostic) : Diagnostic :=
  { d with scope }

@[simp] theorem severity_atScope (scope : String) (d : Diagnostic) :
    (d.atScope scope).severity = d.severity := rfl

@[simp] theorem isError_atScope (scope : String) (d : Diagnostic) :
    (d.atScope scope).isError = d.isError := rfl

end Diagnostic

end Netscribe
