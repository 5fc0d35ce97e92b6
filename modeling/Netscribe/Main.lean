import Netscribe.Command.Run
/-!
# The program

The files of the computer, and the entry point.
-/

namespace Netscribe

/-- The cause that an error of the operating system stands for. -/
def fileErrorOf : IO.Error → FileError
  | .noFileOrDirectory .. => .notFound
  | .alreadyExists .. => .alreadyExists
  | .inappropriateType _ 21 _ => .isADirectory
  | .inappropriateType .. => .notADirectory
  | .invalidArgument _ 36 _ => .nameTooLong
  | e => .other (toString e)

/-- The result of an operation on files, or the cause for which it failed. -/
def attempting {α : Type} (op : IO α) : IO (Except FileError α) := do
  match ← op.toBaseIO with
  | .ok a => return .ok a
  | .error e => return .error (fileErrorOf e)

/-- The text of a file, which must be well formed. -/
def readComputerText (path : String) : IO (Except FileError String) := do
  match ← attempting (IO.FS.readBinFile path) with
  | .error cause => return .error cause
  | .ok bytes =>
    match String.fromUTF8? bytes with
    | some text => return .ok text
    | none => return .error .notText

/-- Is there anything at a path? -/
def isOnComputer (path : String) : IO Bool := do
  return (← (IO.FS.realPath path).toBaseIO).toBool

/-- Is there a directory at a path? -/
def isComputerDirectory (path : String) : IO Bool := do
  match ← (IO.FS.realPath path).toBaseIO with
  | .ok real => real.isDir
  | .error _ => return false

/-- **The files of the computer.** -/
def computerFiles : FileSystem IO where
  currentDirectory := return (← IO.currentDir).toString
  pathExists := isOnComputer
  isFile path := return (← isOnComputer path) && !(← isComputerDirectory path)
  isDirectory := isComputerDirectory
  readText := readComputerText
  makeDirectory path := attempting (IO.FS.createDir path)
  writeText path text := attempting (IO.FS.writeFile path text)

end Netscribe

/-- **The entry point**: runs the command line on the files of the computer. -/
def main (args : List String) : IO UInt32 := do
  let onTerminal ← (← IO.getStderr).isTty
  let output ← Netscribe.runArguments Netscribe.computerFiles onTerminal args
  (← IO.getStdout).putStr output.stdout
  (← IO.getStderr).putStr output.stderr
  return output.code.toUInt32
