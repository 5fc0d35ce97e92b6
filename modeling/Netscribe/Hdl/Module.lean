import Netscribe.Hdl.Association
import Netscribe.Hdl.Lines
/-!
# Definitions as data, and their text

A definition is built once, without regard to the language, and then written as an interface and a
body: the VHDL entity and architecture, or the two parts of a Verilog module.

* `Signal`, `Statement`, `Section` — the parts of a body.
* `Definition` — a definition: its ports, what it declares, its signals and sections.
* `Definition.interface`, `Definition.body` — its text.
* `Dialect.moduleFiles` — the files the text is stored in.
-/

namespace Netscribe

/-- A signal declared inside a definition. -/
structure Signal where
  name : String
  width : Nat
  deriving DecidableEq

/-- **A statement of a body.** -/
inductive Statement where
  | assign (a : Assignment)
  /-- An instance of a definition, with what its ports are bound to. -/
  | instance (definition label : String) (bindings : List (String × Binding))
  deriving DecidableEq

/-- A statement in a language. -/
def Statement.lines (d : Dialect) : Statement → List String
  | .assign a => [a.line d]
  | .instance definition label bindings =>
    (PortMap.ofBindings d bindings).instanceLines d definition label

/-- **A run of statements under a title**, or under none. -/
structure Section where
  title : Option String
  statements : List Statement
  deriving DecidableEq

namespace Section

/-- The section with a title; nothing where there are no statements. -/
def titled (title : String) : List Statement → List Section
  | [] => []
  | statements => [⟨some title, statements⟩]

/-- A section in a language. -/
def lines (d : Dialect) (s : Section) : List String :=
  (match s.title with
    | some title => Lines.heading d title
    | none => []) ++ s.statements.flatMap (Statement.lines d)

end Section

/-- The statements of a body in a language, after which a line is left empty. -/
def functionalityLines (d : Dialect) (sections : List Section) : List String :=
  sections.flatMap (Section.lines d) ++ [""]

/-- What a body declares of a definition it instantiates. -/
structure Declaration where
  name : String
  ports : List Port
  deriving DecidableEq

/-- The declarations in a language. -/
def declarationLines (d : Dialect) (declarations : List Declaration) : List String :=
  declarations.flatMap fun c => d.componentDeclaration c.name c.ports

namespace Dialect

/-- The name of every VHDL architecture. -/
def architectureName : String := "platformIndependent"

/-- The lines that declare signals, under their title; nothing where there are none. -/
def signalLines (d : Dialect) (signals : List Signal) : List String :=
  match signals, d with
  | [], _ => []
  | _, .vhdl =>
    Lines.heading d "All used signals are defined here" ++ signals.map fun s =>
      indent ++ "SIGNAL " ++ alignName s.name ++ " : " ++ vhdlType s.width ++ ";"
  | _, .verilog =>
    Lines.heading d "All used wires are defined here" ++ signals.map fun s =>
      indent ++ "wire " ++ verilogRange s.width ++ s.name ++ ";"

/-- The lines of component declarations, under their title; nothing where there are none. -/
def componentLines (d : Dialect) : List String → List String
  | [] => []
  | components => Lines.heading d "All used components are defined here" ++ components

/-- **The body of a definition** around its statements.  Verilog has no place for component
declarations. -/
def behavior (d : Dialect) (name : String) (components : List String) (signals : List Signal)
    (functionality : List String) : List String :=
  match d with
  | .vhdl =>
    ("ARCHITECTURE " ++ architectureName ++ " OF " ++ name ++ " IS")
      :: (d.componentLines components ++ d.signalLines signals ++ ["", "BEGIN"] ++ functionality
        ++ ["END " ++ architectureName ++ ";"])
  | .verilog => d.signalLines signals ++ functionality ++ ["endmodule"]

/-- **The files of a definition**, each with its lines. -/
def moduleFiles (d : Dialect) (name : String) (interface body : List String) :
    List (String × List String) :=
  match d with
  | .vhdl => [(name ++ "_entity.vhd", interface), (name ++ "_behavior.vhd", body)]
  | .verilog => [(name ++ ".v", interface ++ body)]

end Dialect

/-- **A definition as data.** -/
structure Definition where
  name : String
  ports : List Port
  declarations : List Declaration := []
  signals : List Signal := []
  sections : List Section
  deriving DecidableEq

namespace Definition

/-- The interface of a definition in a language. -/
def interface (d : Dialect) (m : Definition) : List String :=
  d.interface m.name m.ports

/-- The body of a definition in a language. -/
def body (d : Dialect) (m : Definition) : List String :=
  d.behavior m.name (declarationLines d m.declarations) m.signals (functionalityLines d m.sections)

end Definition

end Netscribe
