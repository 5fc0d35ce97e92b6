import Netscribe.Diagnostic.Basic
import Netscribe.Files.Error
/-!
# Faults and warnings of a run

A fault ends the run.  A warning does not: what is missing is tied to ground, skipped or left open,
and the user is told.

* `SinkError`, `Fault` — the causes for which a run ends.
* `Fault.code`, `Fault.message`, `Fault.diagnostic` — how a fault is reported.
* `Warning` — everything a run may warn of, with `Warning.diagnostic`.
-/

namespace Netscribe

/-- Why a finished module is not taken. -/
inductive SinkError where
  /-- A file or directory cannot be written. -/
  | file (path : String) (cause : FileError)
  /-- A module of that name was taken before. -/
  | duplicate (name : String)
  deriving DecidableEq

/-- The text shown when a module is not taken. -/
def SinkError.message : SinkError → String
  | .file path cause => "failed to write " ++ path ++ ": " ++ cause.message
  | .duplicate name => "module `" ++ name ++ "` was already written"

/-- **A cause for which a run ends.** -/
inductive Fault where
  /-- No generator is known for a component. -/
  | missingGenerator (component factory : String)
  /-- A connected clock source has no clock net or no clock tree. -/
  | unresolvedClock (clock : String)
  /-- An instance has no terminal for a pin of its circuit. -/
  | unresolvedPin (instanceLabel pin : String)
  /-- A component has fewer terminals than its kind needs. -/
  | missingTerminal (component : String) (index count : Nat)
  /-- An instance, or the top, refers to a circuit that does not exist. -/
  | missingCircuit (instanceLabel : String) (circuit : UInt32)
  | sink (cause : SinkError)
  deriving DecidableEq

namespace Fault

/-- The code of a fault. -/
def code : Fault → Diagnostic.Code
  | .missingGenerator _ _ => ⟨.error, 301⟩
  | .unresolvedClock _ => ⟨.error, 302⟩
  | .unresolvedPin _ _ => ⟨.error, 303⟩
  | .missingTerminal _ _ _ => ⟨.error, 304⟩
  | .missingCircuit _ _ => ⟨.error, 305⟩
  | .sink _ => ⟨.error, 306⟩

/-- The text of a fault. -/
def message : Fault → String
  | .missingGenerator component factory =>
    "cannot find the HDL generator for component `" ++ component ++ "` (" ++ factory ++ ")"
  | .unresolvedClock clock => "cannot find the clock net of clock source `" ++ clock ++ "`"
  | .unresolvedPin instanceLabel pin =>
    "could not find the end index of pin `" ++ pin ++ "` on sub-circuit instance `" ++
      instanceLabel ++ "`"
  | .missingTerminal component index count =>
    "component `" ++ component ++ "` has no end " ++ toString index ++ " (it has " ++
      toString count ++ ")"
  | .missingCircuit instanceLabel circuit =>
    "sub-circuit instance `" ++ instanceLabel ++ "` refers to unknown circuit " ++ toString circuit
  | .sink cause => cause.message

/-- **How a fault is reported.** -/
def diagnostic (f : Fault) : Diagnostic :=
  { severity := .error, code := f.code, message := f.message }

end Fault

/-- **What a run may warn of.** -/
inductive Warning where
  /-- A port of one bit without a signal, tied to ground. -/
  | unconnectedInput (port : String)
  /-- A whole bus without a signal, tied to ground. -/
  | unconnectedBus (port : String)
  /-- One bit of a bus without a signal, tied to ground. -/
  | unconnectedBit (port : String) (bit : Nat)
  /-- A clock source without a connection, skipped; expected of the system clock. -/
  | unconnectedClock (label : String) (isSystemClock : Bool)
  /-- A bubble without an owner, left open. -/
  | unownedBubble (bubble : Nat)
  deriving DecidableEq

/-- **How a warning is reported.** -/
def Warning.diagnostic : Warning → Diagnostic
  | .unconnectedInput port =>
    { severity := .severeWarning, code := ⟨.warning, 301⟩,
      message := "found an unconnected input `" ++ port ++ "`, tied the pin to ground" }
  | .unconnectedBus port =>
    { severity := .severeWarning, code := ⟨.warning, 301⟩,
      message := "found an unconnected input bus `" ++ port ++ "`, tied all bits to ground" }
  | .unconnectedBit port bit =>
    { severity := .severeWarning, code := ⟨.warning, 301⟩,
      message := "found an unconnected bit " ++ toString bit ++ " on input bus `" ++ port ++
        "`, tied it to ground" }
  | .unconnectedClock label true =>
    { severity := .note, code := ⟨.info, 301⟩,
      message := "clock component found with no connection, skipping `" ++ label ++ "`" }
  | .unconnectedClock label false =>
    { severity := .warning, code := ⟨.warning, 302⟩,
      message := "clock component found with no connection, skipping `" ++ label ++ "`",
      help := ["connect the clock output or remove the clock component"] }
  | .unownedBubble bubble =>
    { severity := .severeWarning, code := ⟨.warning, 303⟩,
      message := "inout bubble " ++ toString bubble ++
        " is not owned by any board resource, left open",
      help := ["add a `[[board.resources]]` entry covering this bubble in circa.toml"] }

end Netscribe
