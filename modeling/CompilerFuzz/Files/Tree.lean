/-
  CompilerFuzz.Files.Tree

  A tree of directories and regular files, and what the system calls that this program
  needs do with a path in it. A path is followed name by name: every name but the last must
  be an existing directory, and a slash at the end asks for one. A path that does not start
  at the root starts in the working directory, which has directories above it.
-/
import CompilerFuzz.Files.Cause
import CompilerFuzz.Files.Path
import CompilerFuzz.Text.Utf8

namespace CompilerFuzz.Files

open CompilerFuzz.Text

/-- A place in the tree: the names from the root of the system down to it. -/
abbrev Location := List String

namespace Location

/-- The root of the system. -/
def root : Location := []

/-- The working directory. Its own name is none that a path can have. -/
def home : Location := ["tmp", "/"]

/-- The directories that are always there. -/
def standing : List Location :=
  [home, root, ["tmp"], ["usr"], ["usr", "bin"], ["usr", "sbin"], ["usr", "lib"], ["usr", "local"],
    ["usr", "local", "bin"], ["usr", "share"], ["bin"], ["sbin"], ["lib"], ["dev"], ["etc"],
    ["home"], ["media"], ["mnt"], ["opt"], ["proc"], ["root"], ["run"], ["srv"], ["sys"], ["var"]]

/-- Is there always a directory here? -/
def isStanding (l : Location) : Bool := standing.contains l

/-- The place above; the root is above itself. -/
def up (l : Location) : Location := l.dropLast

/-- The names from the working directory to a place below it. -/
def belowHome? (l : Location) : Option (List String) :=
  match l with
  | "tmp" :: "/" :: name :: names => some (name :: names)
  | _ => none

end Location

/-- What may be at a location. -/
inductive Node
  | file (content : Bytes)
  | directory
  deriving DecidableEq, Repr

/-- What is where; the directories that are always there are not listed. -/
structure Tree where
  nodes : List (Location × Node)
  deriving DecidableEq, Repr

namespace Tree

/-! ## Locations -/

/-- A tree without anything in it. -/
def empty : Tree := ⟨[]⟩

/-- What is at a location. -/
def find? (t : Tree) (l : Location) : Option Node :=
  if l.isStanding then some .directory else t.nodes.lookup l

/-- Puts a node at a location, in place of what was there. -/
def put (l : Location) (n : Node) : List (Location × Node) → List (Location × Node)
  | [] => [(l, n)]
  | (l', n') :: rest => if l' = l then (l, n) :: rest else (l', n') :: put l n rest

/-- The tree with a node put at a location. -/
def set (t : Tree) (l : Location) (n : Node) : Tree := ⟨put l n t.nodes⟩

/-- The tree without what is at a location. -/
def erase (t : Tree) (l : Location) : Tree := ⟨t.nodes.filter fun e => e.1 ≠ l⟩

/-! ## Paths -/

/-- Longest name of a file, in bytes. -/
def maxName : Nat := 255

/-- Longest path, in bytes. -/
def maxPath : Nat := 4095

/-- Goes from the directory at `l` to the directory under one name. -/
def enter (t : Tree) (l : Location) (name : String) : Except Cause Location :=
  if name = "" ∨ name = "." then .ok l
  else if name = ".." then .ok l.up
  -- a name that is too long is refused before it is looked for
  else if maxName < (bytesOf name).length then .error .nameTooLong
  else
    match t.find? (l ++ [name]) with
    | none => .error .noSuchFile
    | some (.file _) => .error .notADirectory
    | some .directory => .ok (l ++ [name])

/-- What a path leads to: a location in an existing directory, and whether the path can
    only mean a directory there. `plain` tells that the last name is no dot name. -/
structure Target where
  location : Location
  slash : Bool
  plain : Bool
  deriving DecidableEq, Repr

/-- The target of the last name of a path, in the directory at `l`. -/
def lastName (l : Location) (slash : Bool) (name : String) : Target :=
  -- dot names mean directories, with or without a slash behind them
  if name = "" ∨ name = "." then ⟨l, true, false⟩
  else if name = ".." then ⟨l.up, true, false⟩
  else ⟨l ++ [name], slash, true⟩

/-- Follows the names of a path, the last one apart. -/
def follow (t : Tree) (slash : Bool) : Location → List String → Except Cause Target
  | l, [] => .ok ⟨l, true, false⟩
  | l, [name] => .ok (lastName l slash name)
  | l, name :: rest =>
    match t.enter l name with
    | .error e => .error e
    | .ok l => follow t slash l rest

/-- The names of a path, without empty ones at the end. -/
def names (p : Path) : List String :=
  (((Path.pieces p.toList).reverse.dropWhile fun n => n == []).reverse).map String.ofList

/-- Where a path leads that starts in the directory at `l` unless it starts at the root,
    whatever the length of its last name. -/
def aimFrom (t : Tree) (l : Location) (p : Path) : Except Cause Target :=
  if '\x00' ∈ p.toList then .error .nulInPath
  else if p = "" then .error .noSuchFile
  else if maxPath < (bytesOf p).length then .error .nameTooLong
  else
    t.follow (p.toList.getLast? == some '/') (if Path.isAbsolute p then Location.root else l)
      (names p)

/-- Where a path leads from the working directory, whatever the length of its last name. -/
def aim (t : Tree) (p : Path) : Except Cause Target := t.aimFrom Location.home p

/-- Can there be anything at a target? A directory that exists has a name that fits. -/
def Target.fits (target : Target) : Bool :=
  !target.plain || (bytesOf (target.location.getLast?.getD "")).length ≤ maxName

/-- Where a path leads. -/
def locate (t : Tree) (p : Path) : Except Cause Target :=
  match t.aim p with
  | .error e => .error e
  | .ok target => if target.fits then .ok target else .error .nameTooLong

/-! ## Questions -/

/-- What a path names, if it names anything. -/
def status (t : Tree) (p : Path) : Except Cause Node :=
  match t.locate p with
  | .error e => .error e
  | .ok target =>
    match t.find? target.location with
    | none => .error .noSuchFile
    | some .directory => .ok .directory
    | some (.file c) => if target.slash then .error .notADirectory else .ok (.file c)

/-- Does a path name anything? -/
def exists? (t : Tree) (p : Path) : Bool :=
  (t.status p).toOption.isSome

/-- Does a path name a file? -/
def isFile (t : Tree) (p : Path) : Bool :=
  match t.status p with
  | .ok (.file _) => true
  | _ => false

/-- Does a path name a directory? -/
def isDirectory (t : Tree) (p : Path) : Bool :=
  (t.status p).toOption == some .directory

/-- The content of a file. -/
def read (t : Tree) (p : Path) : Except Cause Bytes :=
  match t.status p with
  | .error e => .error e
  | .ok .directory => .error .isADirectory
  | .ok (.file c) => .ok c

/-- The content of a text file. -/
def readText (t : Tree) (p : Path) : Except Cause String :=
  match t.read p with
  | .error e => .error e
  | .ok c =>
    match textOf? c with
    | none => .error .invalidText
    | some s => .ok s

section Laws

variable {t : Tree} {p : Path}

theorem readText_eq_ok_iff {text : String} :
    t.readText p = .ok text ↔
      ∃ bytes, t.read p = .ok bytes ∧ textOf? bytes = some text := by
  unfold readText
  cases t.read p with
  | error cause => simp
  | ok bytes => cases htext : textOf? bytes <;> simp [htext]

theorem readText_eq_error_iff {cause : Cause} :
    t.readText p = .error cause ↔ t.read p = .error cause ∨
      ∃ bytes, t.read p = .ok bytes ∧ textOf? bytes = none ∧ cause = .invalidText := by
  unfold readText
  cases t.read p with
  | error cause' => simp [eq_comm]
  | ok bytes => cases htext : textOf? bytes <;> simp [htext, eq_comm]

end Laws

/-! ## Changes -/

/-- The location at which a path names a file, or could. A slash at its end is found before
    its last name is looked at. -/
def fileTarget (t : Tree) (p : Path) : Except Cause Location :=
  match t.aim p with
  | .error e => .error e
  | .ok target =>
    if target.slash then .error .isADirectory
    else if ¬ target.fits then .error .nameTooLong
    else if t.find? target.location == some .directory then .error .isADirectory
    else .ok target.location

/-- Writes a file, in place of one that is there. -/
def write (t : Tree) (p : Path) (content : Bytes) : Except Cause Tree :=
  match t.fileTarget p with
  | .error e => .error e
  | .ok l => .ok (t.set l (.file content))

/-- Removes a file. -/
def removeFile (t : Tree) (p : Path) : Except Cause Tree :=
  match t.locate p with
  | .error e => .error e
  | .ok target =>
    -- dot names only ever name directories
    if ¬ target.plain then .error .isADirectory
    else
      match t.find? target.location with
      | none => .error .noSuchFile
      | some .directory => .error .isADirectory
      | some (.file _) =>
        if target.slash then .error .notADirectory else .ok (t.erase target.location)

/-- Makes one directory. -/
def makeDirectory (t : Tree) (p : Path) : Except Cause Tree :=
  match t.locate p with
  | .error e => .error e
  | .ok target =>
    match t.find? target.location with
    | none => .ok (t.set target.location .directory)
    | some _ => .error .alreadyExists

/-- Makes a directory and the missing ones above it. On failure the answer still holds the
    directories that were made. -/
def makeDirectories (t : Tree) (p : Path) : Tree × Except Cause Unit :=
  if p = "" then (t, .ok ())
  else
    match t.makeDirectory p with
    | .ok t => (t, .ok ())
    | .error e =>
      -- what is there already will do if it is a directory
      if e ≠ .noSuchFile then (t, if t.isDirectory p then .ok () else .error e)
      else
        match _h : Path.parent? p with
        | none => (t, .error .noParent)
        | some parent =>
          match makeDirectories t parent with
          | (t, .error e) => (t, .error e)
          | (t, .ok ()) =>
            match t.makeDirectory p with
            | .ok t => (t, .ok ())
            -- `a/b/..` is there once `a/b` has been made
            | .error e => (t, if t.isDirectory p then .ok () else .error e)
termination_by p.toList.length
decreasing_by exact Path.length_parent?_lt _h

/-- Puts a node at a path and makes the directories above it. Where that is not possible
    the tree stays as far as it was made. -/
def place (t : Tree) (p : Path) : Node → Tree
  | .directory => (t.makeDirectories p).1
  | .file content =>
    let t := (t.makeDirectories ((Path.parent? p).getD "")).1
    match t.write p content with
    | .ok t => t
    | .error _ => t

end Tree

end CompilerFuzz.Files
