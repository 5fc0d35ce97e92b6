/-!
# Paths

Paths are texts in which slashes separate names.  They are joined as they are given, without
simplification, and shown to the user that way.

* `Path.join` — a path below another.
* `Path.parent?` — the path without its last name.
* `Path.segments` — the names of a path.
-/

namespace Netscribe.Path

/-- A path from the root. -/
def isAbsolute (path : String) : Bool :=
  path.toList.head? == some '/'

/-- **A path below a directory.**  An absolute path stands for itself; joining the empty path leaves
a slash at the end. -/
def join (directory path : String) : String :=
  if isAbsolute path || directory.isEmpty then path
  else if directory.toList.getLast? == some '/' then directory ++ path
  else directory ++ "/" ++ path

/-- Splits at slashes while `name` holds, reversed, the characters of the name being read. -/
def segmentsFrom (name : List Char) : List Char → List String
  | [] => [String.ofList name.reverse]
  | c :: cs =>
    if c = '/' then String.ofList name.reverse :: segmentsFrom [] cs
    else segmentsFrom (c :: name) cs

/-- **The names of a path** between its slashes, empty ones included. -/
def segments (path : String) : List String :=
  segmentsFrom [] path.toList

/-- Drops, from the front of a reversed path, slashes and dots that name no further directory. -/
def dropTrailing : List Char → List Char
  | ['/'] => ['/']
  | '/' :: rest => dropTrailing rest
  | '.' :: '/' :: rest => dropTrailing ('/' :: rest)
  | path => path

/-- **The path without its last name**; the root and the empty path have none. -/
def parent? (path : String) : Option String :=
  match dropTrailing path.toList.reverse with
  | [] => none
  | ['/'] => none
  | reversed =>
    some (String.ofList (dropTrailing (reversed.dropWhile (· != '/'))).reverse)

end Netscribe.Path
