/-!
# Why a file operation fails

* `FileError` — the causes.
* `FileError.message` — the text of the operating system for each.
-/

namespace Netscribe

/-- **A cause for which a file operation fails.** -/
inductive FileError where
  /-- A part of the path does not exist. -/
  | notFound
  /-- What should be a new directory exists already. -/
  | alreadyExists
  /-- A part of the path that should be a directory is none. -/
  | notADirectory
  /-- What should be a file is a directory. -/
  | isADirectory
  /-- A name in the path, or the whole path, is too long. -/
  | nameTooLong
  /-- The path holds a zero character. -/
  | zeroCharacter
  | notText
  /-- Any other cause, in the words of the operating system. -/
  | other (text : String)
  deriving DecidableEq

/-- The text shown for a cause. -/
def FileError.message : FileError → String
  | .notFound => "No such file or directory (os error 2)"
  | .alreadyExists => "File exists (os error 17)"
  | .notADirectory => "Not a directory (os error 20)"
  | .isADirectory => "Is a directory (os error 21)"
  | .nameTooLong => "File name too long (os error 36)"
  | .zeroCharacter => "file name contained an unexpected NUL byte"
  | .notText => "stream did not contain valid UTF-8"
  | .other text => text

end Netscribe
