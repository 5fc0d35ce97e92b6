import Netscribe.Files.System
/-!
# Trees of files

A file system as a value: what stands at each place below the root.  Looking a path up goes through
its names one by one, so that `a/../b` needs a directory `a`.

* `FileTree` — the entries.
* `FileTree.find` — the place a path leads to.
* `FileTree.system` — the operations on a tree, in the state monad.
-/

namespace Netscribe

/-- What stands at a place. -/
inductive FileEntry where
  | file (text : String)
  | directory
  deriving DecidableEq

/-- **A tree of files**: entries by their places, which are lists of names from the root.  The root
is always a directory. -/
structure FileTree where
  /-- The entries; the first one at a place counts. -/
  entries : List (List String × FileEntry) := []
  /-- The place that relative paths start from. -/
  current : List String := []
  deriving DecidableEq

namespace FileTree

/-- What stands at a place. -/
def entry? (tree : FileTree) (place : List String) : Option FileEntry :=
  if place.isEmpty then some .directory else tree.entries.lookup place

inductive Target where
  | entry (place : List String) (entry : FileEntry)
  /-- To a free place in a directory; whether the path asks for a directory there. -/
  | free (place : List String) (asDirectory : Bool)
  deriving DecidableEq

/-- The greatest number of bytes in a name. -/
def maxNameBytes : Nat := 255

/-- The greatest number of bytes in a path. -/
def maxPathBytes : Nat := 4095

/-- Goes from a directory through the names of a path. -/
def walk (tree : FileTree) : (place : List String) → List String → Except FileError Target
  | place, [] => .ok (.entry place .directory)
  | place, name :: names =>
    if name = "" ∨ name = "." then walk tree place names
    else if name = ".." then walk tree place.dropLast names
    else if maxNameBytes < name.utf8ByteSize then .error .nameTooLong
    else
      match tree.entry? (place ++ [name]) with
      | some .directory => walk tree (place ++ [name]) names
      | some (.file text) =>
        if names.isEmpty then .ok (.entry (place ++ [name]) (.file text)) else .error .notADirectory
      | none =>
        if names.all String.isEmpty then .ok (.free (place ++ [name]) (!names.isEmpty))
        else .error .notFound

/-- **The place a path leads to.**  A path that is no path at all is refused before its names are
looked at: one without characters, one with a zero character, and one that is too long. -/
def find (tree : FileTree) (path : String) : Except FileError Target :=
  if path.isEmpty then .error .notFound
  else if path.toList.contains '\x00' then .error .zeroCharacter
  else if maxPathBytes < path.utf8ByteSize then .error .nameTooLong
  else tree.walk (if Path.isAbsolute path then [] else tree.current) (Path.segments path)

/-- Puts an entry at a place. -/
def put (tree : FileTree) (place : List String) (entry : FileEntry) : FileTree :=
  { tree with
    entries :=
      if tree.entries.any (·.1 == place) then
        tree.entries.map fun e => if e.1 == place then (place, entry) else e
      else tree.entries ++ [(place, entry)] }

/-- Puts a directory at a place, and directories above it. -/
def putDirectory (tree : FileTree) (place : List String) : FileTree :=
  (List.range place.length).foldl (fun tree n => tree.put (place.take (n + 1)) .directory) tree

/-- Puts a file at a place, and directories above it. -/
def putFile (tree : FileTree) (place : List String) (text : String) : FileTree :=
  (tree.putDirectory place.dropLast).put place (.file text)

/-- The files below a place, each with the names that lead to it from there, and its text. -/
def filesBelow (tree : FileTree) (place : List String) : List (List String × String) :=
  tree.entries.filterMap fun (p, entry) =>
    match entry with
    | .file text => if place.isPrefixOf p then some (p.drop place.length, text) else none
    | .directory => none

/-- The text of a file. -/
def read (tree : FileTree) (path : String) : Except FileError String :=
  match tree.find path with
  | .ok (.entry _ (.file text)) => .ok text
  | .ok (.entry _ .directory) => .error .isADirectory
  | .ok (.free _ _) => .error .notFound
  | .error cause => .error cause

def makeDirectory (tree : FileTree) (path : String) : Except FileError FileTree :=
  match tree.find path with
  | .ok (.entry _ _) => .error .alreadyExists
  | .ok (.free place _) => .ok (tree.put place .directory)
  | .error cause => .error cause

/-- Puts a text into a file. -/
def write (tree : FileTree) (path text : String) : Except FileError FileTree :=
  match tree.find path with
  | .ok (.entry place (.file _)) => .ok (tree.put place (.file text))
  | .ok (.entry _ .directory) => .error .isADirectory
  | .ok (.free place false) => .ok (tree.put place (.file text))
  | .ok (.free _ true) => .error .isADirectory
  | .error cause => .error cause

/-- Is there a file at a path? -/
def isFile (tree : FileTree) (path : String) : Bool :=
  match tree.find path with
  | .ok (.entry _ (.file _)) => true
  | _ => false

/-- Is there a directory at a path? -/
def isDirectory (tree : FileTree) (path : String) : Bool :=
  match tree.find path with
  | .ok (.entry _ .directory) => true
  | _ => false

/-- Runs an operation that changes the tree when it succeeds. -/
def changing (op : FileTree → Except FileError FileTree) : StateM FileTree (Except FileError Unit) :=
  fun tree =>
    match op tree with
    | .ok tree => (.ok (), tree)
    | .error cause => (.error cause, tree)

/-- **The operations on a tree.** -/
def system : FileSystem (StateM FileTree) where
  currentDirectory := return "/" ++ String.intercalate "/" (← get).current
  pathExists path := return (← get).isFile path || (← get).isDirectory path
  isFile path := return (← get).isFile path
  isDirectory path := return (← get).isDirectory path
  readText path := return (← get).read path
  makeDirectory path := changing (·.makeDirectory path)
  writeText path text := changing (·.write path text)

end FileTree

end Netscribe
