import Netscribe.Hdl.Dialect
/-!
# Command lines

A command line names a command, and options before and after it.  Some options are known
everywhere, the others only after their command.  An option is written with its long name and two
hyphens, or with its letter and one; letters may be written together; a value follows as the next
argument, after an equals sign, or right after a letter.

* `Flag` — the options.
* `readFlags` — the options at the front of some arguments.
* `Invocation`, `Invocation.ofArguments?` — what a command line asks for.
-/

namespace Netscribe

/-! ## Options -/

/-- **An option.** -/
inductive Flag where
  | quiet
  | verbose
  | color
  | config
  | dialect
  | outputDirectory
  | format
  | circuit
  deriving DecidableEq

namespace Flag

def longName : Flag → String
  | .quiet => "quiet"
  | .verbose => "verbose"
  | .color => "color"
  | .config => "config"
  | .dialect => "dialect"
  | .outputDirectory => "output-dir"
  | .format => "format"
  | .circuit => "circuit"

/-- The letter, for an option that has one. -/
def letter? : Flag → Option Char
  | .quiet => some 'q'
  | .verbose => some 'v'
  | .dialect => some 'd'
  | .outputDirectory => some 'o'
  | .format => some 'f'
  | .color | .config | .circuit => none

/-- Does the option have a value? -/
def hasValue : Flag → Bool
  | .quiet | .verbose => false
  | _ => true

/-- The values an option may have; `none` for any. -/
def values? : Flag → Option (List String)
  | .color => some ["auto", "always", "never"]
  | .dialect => some (Dialect.all.map Dialect.name)
  | .format => some ["text", "json"]
  | _ => none

def everywhere : List Flag :=
  [.quiet, .verbose, .color, .config]

end Flag

/-- **An option that was given**, with its value; the value of an option without is empty. -/
structure Given where
  flag : Flag
  value : String := ""
  deriving DecidableEq

/-- May the option have this value? -/
def Given.isValid (g : Given) : Bool :=
  match g.flag.values? with
  | none => true
  | some values => values.contains g.value

/-! ## Reading options -/

inductive Argument where
  /-- An option by its long name, with the text after an equals sign. -/
  | long (name : String) (value : Option String)
  | letters (cs : List Char)
  /-- The two hyphens that end all options. -/
  | terminator
  | plain

/-- The text before an equals sign, and the text after it, where there is one. -/
def splitAtEquals (cs : List Char) : String × Option String :=
  let name := String.ofList (cs.takeWhile (· != '='))
  match cs.dropWhile (· != '=') with
  | _ :: value => (name, some (String.ofList value))
  | [] => (name, none)

/-- What an argument is; a single hyphen is no option. -/
def Argument.ofString (arg : String) : Argument :=
  match arg.toList with
  | ['-', '-'] => .terminator
  | '-' :: '-' :: cs =>
    let (name, value) := splitAtEquals cs
    .long name value
  | '-' :: c :: cs => .letters (c :: cs)
  | _ => .plain

/-- Can an argument not be the value of the option before it? -/
def Argument.isOption : Argument → Bool
  | .plain => false
  | _ => true

/-- What an argument gives: options with their values, and an option that waits for its value. -/
abbrev Giving := List Given × Option Flag

/-- What a long name gives. -/
def readLong (known : List Flag) (name : String) (value : Option String) : Option Giving := do
  let flag ← known.find? fun f => f.longName == name
  match flag.hasValue, value with
  | true, some value => some ([⟨flag, value⟩], none)
  | true, none => some ([], some flag)
  | false, none => some ([⟨flag, ""⟩], none)
  | false, some _ => none

/-- The value right after a letter, without the equals sign it may start with. -/
def attachedValue : List Char → String
  | '=' :: cs => String.ofList cs
  | cs => String.ofList cs

/-- What letters give.  The first one with a value takes the letters after it. -/
def readLetters (known : List Flag) : List Char → Option Giving
  | [] => some ([], none)
  | c :: cs => do
    let flag ← known.find? fun f => f.letter? == some c
    match flag.hasValue, cs with
    | true, [] => some ([], some flag)
    | true, cs => some ([⟨flag, attachedValue cs⟩], none)
    | false, cs =>
      let (given, waiting) ← readLetters known cs
      some (⟨flag, ""⟩ :: given, waiting)

/-- What an argument gives; `none` for an option that is not known, or for a value where there
should be none. -/
def Argument.giving? (known : List Flag) : Argument → Option Giving
  | .long name value => readLong known name value
  | .letters cs => readLetters known cs
  | .terminator | .plain => some ([], none)

/-- **Reads the options at the front of some arguments**, and gives what follows them. -/
def readFlags (known : List Flag) : List String → Option (List Given × List String)
  | [] => some ([], [])
  | arg :: rest =>
    if (Argument.ofString arg).isOption && arg != "--" then do
      let (given, waiting) ← (Argument.ofString arg).giving? known
      match waiting, rest with
      | none, rest =>
        let (more, rest) ← readFlags known rest
        some (given ++ more, rest)
      | some flag, value :: rest =>
        if (Argument.ofString value).isOption then none
        else
          let (more, rest) ← readFlags known rest
          some (given ++ ⟨flag, value⟩ :: more, rest)
      | some _, [] => none
    else some ([], arg :: rest)

/-! ## Invocations -/

inductive ColorChoice where
  | auto
  | always
  | never
  deriving DecidableEq

/-- The form of a report. -/
inductive ReportFormat where
  | text
  | json
  deriving DecidableEq

/-- **What is to be done.** -/
inductive Action where
  /-- Write the modules of the design. -/
  | generate (dialect : Option Dialect) (outputDirectory : Option String) (format : ReportFormat)
  /-- Print what a circuit looks like from outside. -/
  | inspect (circuit : Option String) (dialect : Option Dialect)
  deriving DecidableEq

/-- **What a command line asks for.** -/
structure Invocation where
  /-- Print nothing but errors and results. -/
  quiet : Bool
  verbose : Bool
  color : ColorChoice
  config : Option String
  action : Action
  deriving DecidableEq

/-- The value an option was last given. -/
def lastValue? (given : List Given) (flag : Flag) : Option String :=
  (given.reverse.find? fun g => g.flag == flag).map Given.value

/-- The commands, each with its options. -/
def commands : List (String × List Flag) :=
  [("generate", [.dialect, .outputDirectory, .format]), ("inspect", [.circuit, .dialect])]

/-- The action of a command with some options. -/
def Action.ofGiven (command : String) (given : List Given) : Action :=
  let dialect := (lastValue? given .dialect).bind Dialect.ofName?
  if command = "generate" then
    let format := if lastValue? given .format = some "json" then .json else .text
    .generate dialect (lastValue? given .outputDirectory) format
  else .inspect (lastValue? given .circuit) dialect

/-- Do the options of one place have valid values, each given once? -/
def areProper (given : List Given) : Bool :=
  given.all Given.isValid && decide (given.map Given.flag).Nodup

namespace Invocation

/-- The invocation of a command with some options. -/
def ofGiven (command : String) (given : List Given) : Invocation where
  quiet := (lastValue? given .quiet).isSome
  verbose := (lastValue? given .verbose).isSome
  color :=
    match lastValue? given .color with
    | some "always" => .always
    | some "never" => .never
    | _ => .auto
  config := lastValue? given .config
  action := .ofGiven command given

/-- **The invocation of a command line**, if it is one.  An option may be given once before the
command and once after it, and then the later one counts. -/
def ofArguments? (args : List String) : Option Invocation := do
  let (before, rest) ← readFlags Flag.everywhere args
  match rest with
  | [] => none
  | command :: rest =>
    let flags ← commands.lookup command
    let (after, rest) ← readFlags (Flag.everywhere ++ flags) rest
    if areProper before && areProper after && (rest.isEmpty || rest == ["--"]) then
      some (ofGiven command (before ++ after))
    else none

end Invocation

end Netscribe
