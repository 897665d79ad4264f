/-
  CompilerFuzz.Host.Launch

  How a name is found as a program of the system, and whether that can be called with some
  arguments. The files of a tree cannot be run.
-/
import CompilerFuzz.Host.System

namespace CompilerFuzz.Host

open CompilerFuzz.Files

/-- The program at a path. -/
def programAt (s : System) (directory : Location) (path : Octets) : Except Cause String :=
  match s.status directory path with
  | .error e => .error e
  | .ok (.program name) => .ok name
  | .ok _ => .error .permissionDenied

/-- Looks for a program along the directories of a path variable. If there is none the answer
    tells why. -/
def searchProgram (s : System) (directory : Location) (path name : Octets) : Except Cause String :=
  (path.splitOn ':').foldl (fun found d =>
    match found with
    | .ok r => .ok r
    | .error worst =>
      match programAt s directory (if d = [] then name else d ++ '/' :: name) with
      | .error .noSuchFile | .error .notADirectory => .error worst
      | answer => answer) (.error .noSuchFile)

/-- Finds the program that a name stands for: by its path if it has a slash, and along a path
    variable otherwise. -/
def findProgram (s : System) (directory : Location) (path name : Octets) : Except Cause String :=
  if name.contains '/' then programAt s directory name
  else if name = [] then .error .noSuchFile
  else searchProgram s directory path name

/-- An argument is shorter than this. -/
def argumentBound : Nat := 131072

/-- The room for all arguments of a program; each takes an end and a pointer besides its text. -/
def argumentRoom : Nat := 2097152

/-- Do arguments fit into a call? -/
def argumentsFit (args : List Octets) : Bool :=
  let size := args.foldl (fun n a => n + a.length + 9) 0
  args.all (fun a => a.length < argumentBound) && decide (size ≤ argumentRoom)

/-- A program that was found, unless it cannot be called with some arguments. -/
def withArguments (args : List Octets) (found : Except Cause String) : Except Cause String :=
  match found with
  | .error e => .error e
  | .ok r => if argumentsFit args then .ok r else .error .tooManyArguments

end CompilerFuzz.Host
