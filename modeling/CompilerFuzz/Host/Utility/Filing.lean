/-
  CompilerFuzz.Host.Utility.Filing

  The programs that make, copy, move, list and remove files: `mkdir`, `touch`, `cp`, `mv`, `ls`
  and `rm`.
-/
import CompilerFuzz.Host.Routine

namespace CompilerFuzz.Host.Utility

open CompilerFuzz.Files Routine

/-- The exit status after some faults. -/
def statusOf (faults : List Bool) : Nat := if faults.any id then 1 else 0

/-- Complains; there was a fault. -/
def faulty (message : Octets) : Routine Bool := do
  complain message
  return true

/-- The complaint about missing operands. -/
def noFiles {α : Type} : Routine α := misused 1 "missing file operand".toList

/-- The last name of a path. -/
def lastName (path : Octets) : Octets :=
  ((path.reverse.dropWhile (· == '/')).takeWhile (· ≠ '/')).reverse

/-- A path in a directory. -/
def inDirectory (directory name : Octets) : Octets :=
  if directory.getLast? = some '/' then directory ++ name else directory ++ '/' :: name

/-! ## Directories -/

/-- A path and those above it, the outermost first. -/
def pathsDownTo (path : Octets) : List Octets :=
  let cuts := (List.range path.length).filter fun i => path[i]? = some '/'
  (cuts.map fun i => path.take i).filter (fun p => p ≠ []) ++ [path]

/-- Makes a directory and tells whether that failed. -/
def makeOne (path : Octets) : Routine Bool := do
  let failed (e : Cause) : Routine Bool :=
    faulty ("cannot create directory ".toList ++ quoted path ++ [':', ' '] ++ causeWords e)
  let s ← get
  match s.aim (← process).directory path with
  | .error e => failed e
  | .ok target =>
    if ¬ target.fits then failed .nameTooLong
    else if (s.kindAt? target.location).isSome then failed .alreadyExists
    else
      set { s with files := s.files.set target.location .directory }
      return false

/-- Makes directories. -/
def mkdir : Program := fun args => do
  let p ← parsed 1 "p" true args
  if p.operands = [] then misused 1 "missing operand".toList
  let faults ← p.operands.mapM fun path => do
    if ¬ p.has 'p' then makeOne path
    else
      let faults ← (pathsDownTo path).mapM fun part => do
        match ← status part with
        | .ok (.directory _) => return false
        | _ => makeOne part
      return faults.any id
  return statusOf faults

/-! ## Removing -/

/-- What is below a location, and what is there: inner places before outer ones. -/
def placesBelow (s : System) (l : Location) : List Location :=
  ((s.files.nodes.map Prod.fst).filter fun m => l.isPrefixOf m).mergeSort fun a b =>
    b.length ≤ a.length

/-- Removes a file, or a directory with all that is in it, and tells whether that failed. -/
def removeOne (force recursive : Bool) (path : Octets) : Routine Bool := do
  let failed (words : Octets) : Routine Bool :=
    faulty ("cannot remove ".toList ++ apostrophed path ++ [':', ' '] ++ words)
  match ← status path with
  | .error e =>
    if force ∧ (e = .noSuchFile ∨ e = .notADirectory) then return false else failed (causeWords e)
  | .ok (.directory l) =>
    if ¬ recursive then failed (causeWords .isADirectory)
    else if lastName path = ['.'] ∨ lastName path = ['.', '.'] then
      faulty ("refusing to remove '.' or '..' directory: skipping ".toList ++ apostrophed path)
    else if l.isStanding then failed "Device or resource busy".toList
    else
      (placesBelow (← get) l).forM fun m => modify fun s =>
        if s.files.find? m = some .directory then { s with files := s.files.erase m } else s.unlink m
      return false
  | .ok (.file l) =>
    modify fun s => s.unlink l
    return false
  | .ok _ => failed "Operation not permitted".toList

/-- Removes files. -/
def rm : Program := fun args => do
  let p ← parsed 1 "frR" true args
  if p.operands = [] ∧ ¬ p.has 'f' then misused 1 "missing operand".toList
  let faults ← p.operands.mapM (removeOne (p.has 'f') (p.has 'r' || p.has 'R'))
  return statusOf faults

/-! ## Files -/

/-- Makes files that are not there. -/
def touch : Program := fun args => do
  let p ← parsed 1 "c" true args
  if p.operands = [] then noFiles
  let faults ← p.operands.mapM fun path => do
    match ← status path with
    | .ok _ => return false
    | .error e =>
      if path.getLast? = some '/' then faulty (aboutFile "setting times of" path e)
      else if p.has 'c' then return false
      else
        match (← get).openOutput (← process) path true false false with
        | .ok (_, s) =>
          set s
          return false
        | .error e => faulty (aboutFile "cannot touch" path e)
  return statusOf faults

/-- Takes sources and a target from operands, and does something for each source and the path
    at which it arrives. -/
def transfer (one : (source target : Octets) → Routine Bool) : Program := fun operands => do
  match operands.reverse with
  | [] => noFiles
  | [source] => misused 1 ("missing destination file operand after ".toList ++ apostrophed source)
  | target :: sources =>
    let faults ← match ← status target, sources with
      | .ok (.directory _), sources =>
        sources.reverse.mapM fun source => one source (inDirectory target (lastName source))
      | _, [source] => return statusOf [← one source target]
      | .ok _, _ => fail 1 (aboutFile "target" target .notADirectory)
      | .error e, _ => fail 1 (aboutFile "target" target e)
    return statusOf faults

/-- The complaint that two paths name one file. -/
def sameFile (source target : Octets) : Octets :=
  apostrophed source ++ " and ".toList ++ apostrophed target ++ " are the same file".toList

/-- Copies a file and tells whether that failed. -/
def copyOne (source target : Octets) : Routine Bool := do
  match ← status source, ← status target with
  | .error e, _ => faulty (aboutFile "cannot stat" source e)
  | .ok (.directory _), _ =>
    faulty ("-r not specified; omitting directory ".toList ++ apostrophed source)
  | .ok a, there =>
    if (there.toOption = some a : Bool) then faulty (sameFile source target)
    else
      match ← readInput source with
      | .error message =>
        faulty ("error reading ".toList ++ apostrophed source ++ [':', ' '] ++ message)
      | .ok cs =>
        match (← get).openOutput (← process) target false false true with
        | .error e => faulty (aboutFile "cannot create regular file" target e)
        | .ok (n, s) =>
          set (s.write n cs).1
          return false

/-- Copies files. -/
def cp : Program := fun args => do
  transfer copyOne (← parsed 1 "f" true args).operands

/-- Moves a file and tells whether that failed. -/
def moveOne (source target : Octets) : Routine Bool := do
  let cannotMove (e : Cause) : Routine Bool :=
    faulty ("cannot move ".toList ++ apostrophed source ++ " to ".toList ++ apostrophed target
      ++ [':', ' '] ++ causeWords e)
  let s ← get
  match ← status source, s.aim (← process).directory target with
  | .error e, _ => faulty (aboutFile "cannot stat" source e)
  | _, .error e => cannotMove e
  | .ok (.file l), .ok t =>
    if t.location = l then faulty (sameFile source target)
    else if t.slash then cannotMove .notADirectory
    else if ¬ t.fits then cannotMove .nameTooLong
    else
      set (s.rename l t.location)
      return false
  | .ok _, .ok _ => cannotMove .permissionDenied

/-- Moves files. -/
def mv : Program := fun args => do
  transfer moveOne (← parsed 1 "f" true args).operands

/-! ## Listing -/

/-- Lists files, then what is in directories. Several directories are told apart by headings. -/
def ls : Program := fun args => do
  let p ← parsed 2 "aA1" true args
  let paths := Octets.sorted (if p.operands = [] then [['.']] else p.operands)
  let found ← paths.mapM fun path => return (path, ← status path)
  let faults ← found.mapM fun r => do
    match r.2 with
    | .error e => faulty (aboutFile "cannot access" r.1 e)
    | .ok _ => return false
  let s ← get
  let plain := found.filterMap fun r =>
    match r.2 with
    | .ok (.directory _) | .error _ => none
    | .ok _ => some (r.1 ++ ['\n'])
  let sections := found.filterMap fun r =>
    match r.2 with
    | .ok (.directory l) =>
      let names := (s.files.namesIn l).filter fun n =>
        p.has 'a' || p.has 'A' || n.toList.head? ≠ some '.'
      let names := if p.has 'a' then "." :: ".." :: names else names
      let heading : Octets := if 1 < paths.length then r.1 ++ [':', '\n'] else []
      some (heading ++ names.flatMap fun n => Octets.ofText n ++ ['\n'])
    | _ => none
  print (['\n'].intercalate ((if plain = [] then [] else [plain.flatten]) ++ sections))
  return if faults.any id then 2 else 0

end CompilerFuzz.Host.Utility
