import Netscribe.Files.Error
import Netscribe.Files.Path
/-!
# File systems

The few operations the command line needs, in any monad: the real files of a computer, or a tree of
files held as a value.

* `FileSystem` — the operations.
* `FileSystem.createDirectories` — a directory and what is missing above it.
-/

namespace Netscribe

/-- **The operations on files.** -/
structure FileSystem (m : Type → Type) where
  /-- The directory relative paths start from. -/
  currentDirectory : m String
  /-- Is there anything at a path? -/
  pathExists : String → m Bool
  /-- Is there a file at a path? -/
  isFile : String → m Bool
  /-- Is there a directory at a path? -/
  isDirectory : String → m Bool
  readText : String → m (Except FileError String)
  makeDirectory : String → m (Except FileError Unit)
  /-- Puts a text into a file, in place of what it held. -/
  writeText : String → String → m (Except FileError Unit)

namespace FileSystem

variable {m : Type → Type} [Monad m]

/-- Makes a directory where there is none, given how to make the one above it. -/
def createAbove (fs : FileSystem m) (path : String) (above : m (Except FileError Unit)) :
    m (Except FileError Unit) := do
  match ← fs.makeDirectory path with
  | .ok () => return .ok ()
  | .error .notFound =>
    match ← above with
    | .error cause => return .error cause
    | .ok () =>
      match ← fs.makeDirectory path with
      | .ok () => return .ok ()
      | .error cause => return if ← fs.isDirectory path then .ok () else .error cause
  | .error cause => return if ← fs.isDirectory path then .ok () else .error cause

/-- Makes a directory and at most `levels` directories above it. -/
def createWithin (fs : FileSystem m) : (levels : Nat) → (path : String) → m (Except FileError Unit)
  | 0, _ => return .ok ()
  | levels + 1, path =>
    if path.isEmpty then return .ok ()
    else
      fs.createAbove path <|
        match Path.parent? path with
        | some above => createWithin fs levels above
        | none => return .error (.other "failed to create whole tree")

/-- **Makes a directory and every directory above it that is missing.**  A path has fewer
directories above it than characters. -/
def createDirectories (fs : FileSystem m) (path : String) : m (Except FileError Unit) :=
  fs.createWithin (path.length + 1) path

end FileSystem

end Netscribe
