/-
  CompilerFuzz.Files.Cause

  Why the operating system refused a request, and the words it uses. Causes with a
  number are the system's own; the rest are found before the system is asked.
-/

namespace CompilerFuzz.Files

/-- Why a file or program could not be used. -/
inductive Cause
  | noSuchFile
  | permissionDenied
  | alreadyExists
  | notADirectory
  | isADirectory
  | nameTooLong
  /-- A program is called with more arguments than can be handed over. -/
  | tooManyArguments
  /-- A text was asked for and the bytes are none. -/
  | invalidText
  /-- A path with a NUL byte names no file. -/
  | nulInPath
  /-- A program name or argument with a NUL byte cannot be handed over. -/
  | nulInArgument
  /-- A directory was to be made and no start of its path could be. -/
  | noParent
  /-- Any other cause, by its text. -/
  | other (text : String)
  deriving DecidableEq, Repr

/-- The words for a cause. -/
def Cause.message : Cause → String
  | .noSuchFile => "No such file or directory (os error 2)"
  | .permissionDenied => "Permission denied (os error 13)"
  | .alreadyExists => "File exists (os error 17)"
  | .notADirectory => "Not a directory (os error 20)"
  | .isADirectory => "Is a directory (os error 21)"
  | .nameTooLong => "File name too long (os error 36)"
  | .tooManyArguments => "Argument list too long (os error 7)"
  | .invalidText => "stream did not contain valid UTF-8"
  | .nulInPath => "file name contained an unexpected NUL byte"
  | .nulInArgument => "nul byte found in provided data"
  | .noParent => "failed to create whole tree"
  | .other text => text

end CompilerFuzz.Files
