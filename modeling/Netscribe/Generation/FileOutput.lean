import Netscribe.Files.System
import Netscribe.Generation.Fault
import Netscribe.Generation.Module
/-!
# Modules written to files

Every file of a module stands in `root/language/directory`.  The directories are made as they are
needed, and every file that was written is remembered, in order.

* `FileOutput.directory` — where the files of a module stand.
* `FileOutput.contents` — what a file holds: its lines, each ended by a line feed.
* `FileOutput.offer` — writes a module.
-/

namespace Netscribe.FileOutput

variable {m : Type → Type} [Monad m]

/-- Where the files of a module stand. -/
def directory (root : String) (d : Dialect) (generated : GeneratedModule) : String :=
  Path.join (Path.join root d.name) generated.directory

/-- What a file of some lines holds. -/
def contents (lines : List String) : String :=
  String.intercalate "\n" lines ++ "\n"

/-- Writes files into a directory, up to the first that cannot be written. -/
def writeFiles (fs : FileSystem m) (directory : String) :
    List (String × List String) → StateT (List String) m (Except SinkError Unit)
  | [] => return .ok ()
  | (name, lines) :: files => do
    let path := Path.join directory name
    match ← liftM (fs.writeText path (contents lines)) with
    | .error cause => return .error (.file path cause)
    | .ok () =>
      modify (· ++ [path])
      writeFiles fs directory files

/-- **Writes a module** below a root; the state lists the paths of the written files. -/
def offer (fs : FileSystem m) (root : String) (d : Dialect) (generated : GeneratedModule) :
    StateT (List String) m (Except SinkError Unit) := do
  let place := directory root d generated
  match ← liftM (fs.createDirectories place) with
  | .error cause => return .error (.file place cause)
  | .ok () => writeFiles fs place (generated.files d)

end Netscribe.FileOutput
