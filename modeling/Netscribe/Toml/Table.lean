import Netscribe.Toml.Basic
/-!
# Tables under construction

A document is a sequence of lines, each of which defines something inside one table.  What a line
may add depends on how a table came to be: by a header of its own, because the header of a table
inside it needed it, or by dotted keys.  A value, once written, is closed.

* `Line`, `Block` — the lines of a document, and the lines below one header.
* `Node`, `Entries` — a table under construction.
* `Entries.define` — adds a key with a value.
* `Entries.alter` — changes what stands at a path of headers.
* `ofLines?` — the table of a document.
-/

namespace Netscribe.Toml

/-- **A line of a document.** -/
inductive Line where
  /-- The header of a table, or of the next table of an array. -/
  | header (isArray : Bool) (path : List String)
  /-- A key, as the parts between its dots, and its value. -/
  | entry (key : List String) (value : Toml)

/-- How a table came to be. -/
inductive Origin where
  | header
  /-- By the header of a table inside it. -/
  | implied
  | dotted
  deriving DecidableEq

/-- **What stands at a key of a table under construction.** -/
inductive Node where
  | value (v : Toml)
  | table (origin : Origin) (entries : List (String × Node))
  /-- An array of tables made by headers; never empty. -/
  | tables (elements : List (List (String × Node)))

/-- The entries of a table under construction. -/
abbrev Entries := List (String × Node)

namespace Entries

/-- Puts a node at a key, in place of one there. -/
def put (entries : Entries) (key : String) (node : Node) : Entries :=
  match entries with
  | [] => [(key, node)]
  | e :: rest => if e.1 == key then (key, node) :: rest else e :: put rest key node

/-- The elements of an array of tables with its last one changed. -/
def changeLast (change : Entries → Option Entries) : List Entries → Option (List Entries)
  | [] => none
  | [last] => (change last).map fun last => [last]
  | element :: rest => (changeLast change rest).map (element :: ·)

/-- **Adds a key with a value.**  The key must be new.  A dotted key may add to tables made by
dotted keys only; on its way there it may pass through tables that were implied and through the
last element of an array. -/
def define (value : Toml) : (key : List String) → Entries → Option Entries
  | [], _ => none
  | [name], entries =>
    if entries.any (·.1 == name) then none else some (entries ++ [(name, .value value)])
  | name :: next :: rest, entries =>
    match entries.lookup name with
    | none =>
      (define value (next :: rest) []).map fun sub => entries.put name (.table .dotted sub)
    | some (.table .dotted sub) =>
      (define value (next :: rest) sub).map fun sub => entries.put name (.table .dotted sub)
    | some (.table .implied sub) =>
      if rest.isEmpty then none
      else (define value (next :: rest) sub).map fun sub => entries.put name (.table .implied sub)
    | some (.tables elements) =>
      if rest.isEmpty then none
      else
        (changeLast (define value (next :: rest)) elements).map fun elements =>
          entries.put name (.tables elements)
    | some (.table .header _) => none
    | some (.value _) => none

/-- Adds keys with values, in order. -/
def defineAll (entries : Entries) (lines : List (List String × Toml)) : Option Entries :=
  lines.foldlM (fun entries line => define line.2 line.1 entries) entries

/-- **Changes what stands at a path of headers.**  Tables that are missing on the way are implied;
of an array of tables the last one is meant. -/
def alter (change : Option Node → Option Node) : (path : List String) → Entries → Option Entries
  | [], _ => none
  | [name], entries => (change (entries.lookup name)).map fun node => entries.put name node
  | name :: next :: rest, entries =>
    match entries.lookup name with
    | none =>
      (alter change (next :: rest) []).map fun sub => entries.put name (.table .implied sub)
    | some (.table origin sub) =>
      (alter change (next :: rest) sub).map fun sub => entries.put name (.table origin sub)
    | some (.tables elements) =>
      (changeLast (alter change (next :: rest)) elements).map fun elements =>
        entries.put name (.tables elements)
    | some (.value _) => none

end Entries

/-! ## Documents -/

/-- The lines below one header. -/
structure Block where
  /-- Does the header start the next table of an array? -/
  isArray : Bool
  path : List String
  lines : List (List String × Toml)

/-- The lines above the first header, and the blocks below the headers. -/
def blocks : List Line → List (List String × Toml) × List Block
  | [] => ([], [])
  | .entry key value :: rest =>
    let (lines, bs) := blocks rest
    ((key, value) :: lines, bs)
  | .header isArray path :: rest =>
    let (lines, bs) := blocks rest
    ([], ⟨isArray, path, lines⟩ :: bs)

/-- What a block makes of the node at its path.  A table gets one header only, and not after dotted
keys have made it; an array of tables grows by headers only. -/
def Block.node? (b : Block) (old : Option Node) : Option Node :=
  match b.isArray, old with
  | false, none => (Entries.defineAll [] b.lines).map (.table .header)
  | false, some (.table .implied sub) => (Entries.defineAll sub b.lines).map (.table .header)
  | true, none => (Entries.defineAll [] b.lines).map fun element => .tables [element]
  | true, some (.tables elements) =>
    (Entries.defineAll [] b.lines).map fun element => .tables (elements ++ [element])
  | _, _ => none

mutual

/-- The value of a node. -/
def Node.toToml : Node → Toml
  | .value v => v
  | .table _ entries => .table (entriesToToml entries)
  | .tables elements => .array (elementsToToml elements)

def entriesToToml : List (String × Node) → List (String × Toml)
  | [] => []
  | (key, node) :: rest => (key, node.toToml) :: entriesToToml rest

/-- The values of the elements of an array of tables. -/
def elementsToToml : List (List (String × Node)) → List Toml
  | [] => []
  | entries :: rest => .table (entriesToToml entries) :: elementsToToml rest

end

/-- **The table of a document**, if its lines agree. -/
def ofLines? (lines : List Line) : Option Toml := do
  let (top, bs) := blocks lines
  let root ← Entries.defineAll [] top
  let root ← bs.foldlM (fun root b => root.alter b.node? b.path) root
  return .table (entriesToToml root)

/-- The table between braces, if its keys agree. -/
def ofInline? (lines : List (List String × Toml)) : Option Toml :=
  (Entries.defineAll [] lines).map fun entries => .table (entriesToToml entries)

end Netscribe.Toml
