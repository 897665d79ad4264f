/-
  CompilerFuzz.Host.System

  What processes share: files, and what has been opened. Processes know open files by numbers,
  so that two of them can write to one file in turn. A file that loses its name stays for those
  that have it open. A process ends with an exit status or by a signal.
-/
import CompilerFuzz.Files.Listing
import CompilerFuzz.Host.Octets

namespace CompilerFuzz.Host

open CompilerFuzz.Files CompilerFuzz.Text

/-! ## Open files -/

/-- Where the bytes of a file are. -/
inductive Spot
  | named (l : Location)
  /-- A file that no longer has a name. -/
  | nameless (n : Nat)
  deriving DecidableEq, Repr

/-- Files that are no part of the tree. -/
inductive Device
  | null
  | zero
  | full
  /-- What a process has under a descriptor. -/
  | descriptor (n : Nat)
  deriving DecidableEq, Repr

/-- An open file. -/
inductive OpenFile
  | device (d : Device)
  | directory (l : Location)
  /-- Takes output, latest first. A pipe takes only so much of it. -/
  | sink (written : List Octets) (size : Nat) (limit : Option Nat)
  /-- The input that is left. -/
  | source (rest : Octets)
  | file (spot : Spot) (offset : Nat) (appends reads writes : Bool)
  deriving DecidableEq, Repr

/-- How the file of a redirection is opened. -/
inductive Opening
  | input
  | output
  | append
  | both
  deriving DecidableEq, Repr

/-- Why a process could not read or write. -/
inductive Refusal
  | badDescriptor
  | noSpace
  | isADirectory
  /-- Nobody reads the pipe any more. -/
  | brokenPipe
  deriving DecidableEq, Repr

/-- The words for a refusal. -/
def Refusal.words : Refusal → String
  | .badDescriptor => "Bad file descriptor"
  | .noSpace => "No space left on device"
  | .isADirectory => "Is a directory"
  | .brokenPipe => "Broken pipe"

/-- The words for a cause, without its number. -/
def causeWords (e : Cause) : Octets :=
  match e with
  | .other text => Octets.ofText text
  | e => (e.message.toList.takeWhile (· ≠ '(')).dropLast

/-! ## Processes -/

/-- What a process has of its own. -/
structure Process where
  /-- The numbers of the files behind the descriptors. -/
  descriptors : List (Nat × Nat)
  directory : Location
  environment : List (Octets × Octets)
  /-- The signals that it was started to ignore. -/
  ignored : List Nat
  number : Nat
  deriving DecidableEq, Repr

/-- How a process has ended. -/
inductive Ending
  | exit (status : Nat)
  | killed (signal : Nat)
  deriving DecidableEq, Repr

/-- The status by which a shell knows an ending. -/
def Ending.status : Ending → Nat
  | .exit status => status
  | .killed signal => 128 + signal

/-! ## The system -/

/-- What processes share. -/
structure System where
  files : Tree
  opened : Array OpenFile
  nameless : List (Nat × Bytes)
  /-- The processes that run. -/
  living : List Nat
  /-- Signals that were sent and not yet taken, each with its process. -/
  signals : List (Nat × Nat)
  /-- The largest number of a process. -/
  processes : Nat

namespace System

/-- The number of the first process. -/
def firstProcess : Nat := 1000

/-- A system in which nothing has been opened. -/
def idle (files : Tree) : System where
  files := files
  opened := #[]
  nameless := []
  living := []
  signals := []
  processes := firstProcess

/-- Adds an open file; its number is the first component. -/
def add (s : System) (f : OpenFile) : Nat × System :=
  (s.opened.size, { s with opened := s.opened.push f })

/-- The open file behind a number. -/
def get (s : System) (n : Nat) : OpenFile := (s.opened[n]?).getD (.device .null)

/-- Puts an open file in the place of another one. -/
def put (s : System) (n : Nat) (f : OpenFile) : System :=
  { s with opened := s.opened.setIfInBounds n f }

/-- The bytes of a file. -/
def content (s : System) : Spot → Bytes
  | .named l =>
    match s.files.find? l with
    | some (.file bs) => bs
    | _ => []
  | .nameless n => (s.nameless.lookup n).getD []

/-- Gives a file other bytes. -/
def setContent (s : System) (spot : Spot) (bs : Bytes) : System :=
  match spot with
  | .named l => { s with files := s.files.set l (.file bs) }
  | .nameless n => { s with nameless := (n, bs) :: s.nameless.filter fun e => e.1 ≠ n }

/-- The number that the next file without a name gets. -/
def nextNameless (s : System) : Nat := s.nameless.length

/-- Moves the open files at one spot to another one. -/
def respot (s : System) (source target : Spot) : System :=
  { s with opened := s.opened.map fun
      | .file spot offset appends reads writes =>
        .file (if spot = source then target else spot) offset appends reads writes
      | f => f }

/-- Takes the name of the file at a location away. -/
def unlink (s : System) (l : Location) : System :=
  -- who has the file open goes on reading and writing it
  let spot := Spot.nameless s.nextNameless
  let s := (s.setContent spot (s.content (.named l))).respot (.named l) spot
  { s with files := s.files.erase l }

/-- Gives the file at a location another one. -/
def rename (s : System) (source target : Location) : System :=
  if source = target then s
  else
    -- the file that was there loses its name, and is still open where it was
    let s := if (s.files.find? target).isSome then s.unlink target else s
    let bs := s.content (.named source)
    let s := s.respot (.named source) (.named target)
    { s with files := (s.files.erase source).set target (.file bs) }

/-! ## Signals -/

/-- Sends a signal to a process. -/
def send (s : System) (process signal : Nat) : System :=
  if signal = 0 then s else { s with signals := s.signals ++ [(process, signal)] }

/-- Takes the first signal that was sent to a process. -/
def take? (s : System) (process : Nat) : Option (Nat × System) :=
  (s.signals.find? fun e => e.1 = process).map fun e =>
    (e.2, { s with signals := s.signals.erase e })

/-! ## Output -/

/-- Bytes with others in the place of what stands behind an offset; zeros fill a gap. -/
def overwritten (old : Bytes) (offset : Nat) (new : Bytes) : Bytes :=
  let before := old.take offset
  before ++ List.replicate (offset - before.length) 0 ++ new ++ old.drop (offset + new.length)

/-- Writes to an open file. -/
def write (s : System) (n : Nat) (cs : Octets) : System × Option Refusal :=
  match s.get n with
  | .device .full => (s, if cs = [] then none else some .noSpace)
  | .device _ => (s, none)
  | .directory _ | .source _ => (s, some .badDescriptor)
  | .sink written size limit =>
    -- a pipe that is full has no reader yet, so the writer is stopped
    let size := size + cs.length
    let s := s.put n (.sink (cs :: written) size limit)
    match limit with
    | none => (s, none)
    | some limit => (s, if limit < size then some .brokenPipe else none)
  | .file spot offset appends reads writes =>
    if ¬ writes then (s, some .badDescriptor)
    else
      let old := s.content spot
      -- whoever appends writes at the end, wherever others have written since
      let offset := if appends then old.length else offset
      let s := s.setContent spot (overwritten old offset cs.toBytes)
      (s.put n (.file spot (offset + cs.length) appends reads writes), none)

/-- Everything that a sink has taken. -/
def taken (s : System) (n : Nat) : Octets :=
  match s.get n with
  | .sink written .. => written.reverse.flatten
  | _ => []

/-! ## Input -/

/-- What is left to read in an open file. -/
def left (s : System) (n : Nat) : Except Refusal Octets :=
  match s.get n with
  | .device _ => .ok []
  | .directory _ => .error .isADirectory
  | .sink .. => .error .badDescriptor
  | .source rest => .ok rest
  | .file spot offset _ reads _ =>
    if reads then .ok (Octets.ofBytes ((s.content spot).drop offset)) else .error .badDescriptor

/-- Steps over bytes that have been read. -/
def step (s : System) (n count : Nat) : System :=
  match s.get n with
  | .source rest => s.put n (.source (rest.drop count))
  | .file spot offset appends reads writes =>
    s.put n (.file spot (offset + count) appends reads writes)
  | .device _ | .directory _ | .sink .. => s

/-! ## Paths -/

/-- What a path names. -/
inductive Kind
  | file (l : Location)
  | directory (l : Location)
  | device (d : Device)
  /-- A program of the system. -/
  | program (name : String)
  deriving DecidableEq, Repr

/-- The programs that are there. -/
def programs : List String :=
  ["[", "bash", "cat", "cp", "dash", "echo", "env", "false", "head", "ls", "mkdir", "mv", "printf",
    "rm", "seq", "sh", "sleep", "tail", "test", "touch", "tr", "true", "wc", "yes"]

/-- The device at a location. -/
def device? : Location → Option Device
  | ["dev", "null"] => some .null
  | ["dev", "zero"] => some .zero
  | ["dev", "full"] => some .full
  | ["dev", "stdin"] => some (.descriptor 0)
  | ["dev", "stdout"] => some (.descriptor 1)
  | ["dev", "stderr"] => some (.descriptor 2)
  | _ => none

/-- The program at a location. -/
def program? : Location → Option String
  | ["bin", name] => if name ∈ programs then some name else none
  | ["usr", "bin", name] => if name ∈ programs then some name else none
  | _ => none

/-- What is at a location. -/
def kindAt? (s : System) (l : Location) : Option Kind :=
  match device? l, program? l, s.files.find? l with
  | some d, _, _ => some (.device d)
  | none, some name, _ => some (.program name)
  | none, none, some (.file _) => some (.file l)
  | none, none, some .directory => some (.directory l)
  | none, none, none => none

/-- Where a path leads from a directory. -/
def aim (s : System) (directory : Location) (path : Octets) : Except Cause Tree.Target :=
  s.files.aimFrom directory path.toText

/-- What a path names from a directory. -/
def status (s : System) (directory : Location) (path : Octets) : Except Cause Kind :=
  match s.aim directory path with
  | .error e => .error e
  | .ok target =>
    if ¬ target.fits then .error .nameTooLong
    else
      match s.kindAt? target.location with
      | none => .error .noSuchFile
      | some (.directory l) => .ok (.directory l)
      | some kind => if target.slash then .error .notADirectory else .ok kind

/-- The content of the file that a path names from a directory. -/
def readFile (s : System) (directory : Location) (path : Octets) : Except Cause Octets :=
  match s.status directory path with
  | .error e => .error e
  | .ok (.file l) => .ok (Octets.ofBytes (s.content (.named l)))
  | .ok (.directory _) => .error .isADirectory
  | .ok (.device _) | .ok (.program _) => .ok []

/-! ## Opening -/

/-- The file behind a device. -/
def openDevice (s : System) (p : Process) (reads writes empties : Bool) :
    Device → Except Cause (Nat × System)
  | .descriptor n =>
    match p.descriptors.lookup n with
    | none => .error .noSuchFile
    | some number =>
      match s.get number with
      -- a file is opened anew, with an offset of its own; a pipe is shared
      | .file spot _ appends _ _ =>
        let s := if empties then s.setContent spot [] else s
        .ok (s.add (.file spot 0 appends reads writes))
      | _ => .ok (number, s)
  | d => .ok (s.add (.device d))

/-- Opens a file for reading. -/
def openInput (s : System) (p : Process) (path : Octets) : Except Cause (Nat × System) :=
  match s.status p.directory path with
  | .error e => .error e
  | .ok (.file l) => .ok (s.add (.file (.named l) 0 false true false))
  | .ok (.directory l) => .ok (s.add (.directory l))
  | .ok (.device d) => s.openDevice p true false false d
  | .ok (.program _) => .ok (s.add (.source []))

/-- Opens a file for writing and makes it if it is not there. -/
def openOutput (s : System) (p : Process) (path : Octets) (appends reads empties : Bool) :
    Except Cause (Nat × System) :=
  match s.aim p.directory path with
  | .error e => .error e
  | .ok target =>
    if target.slash then .error .isADirectory
    else if ¬ target.fits then .error .nameTooLong
    else
      match s.kindAt? target.location with
      | some (.directory _) => .error .isADirectory
      | some (.device d) => s.openDevice p reads true empties d
      | some (.program _) => .error (.other "Text file busy")
      | some (.file l) =>
        let s := if empties then s.setContent (.named l) [] else s
        .ok (s.add (.file (.named l) 0 appends reads true))
      | none =>
        let s := s.setContent (.named target.location) []
        .ok (s.add (.file (.named target.location) 0 appends reads true))

/-- Opens a file for a redirection. -/
def openAs (s : System) (p : Process) (opening : Opening) (path : Octets) :
    Except Cause (Nat × System) :=
  match opening with
  | .input => s.openInput p path
  | .output => s.openOutput p path false false true
  | .append => s.openOutput p path true false false
  | .both => s.openOutput p path false true false

end System

/-! ## Descriptors -/

namespace Process

/-- The number of the file behind a descriptor. -/
def number? (p : Process) (descriptor : Nat) : Option Nat := p.descriptors.lookup descriptor

/-- The process without a descriptor. -/
def close (p : Process) (descriptor : Nat) : Process :=
  { p with descriptors := p.descriptors.filter fun e => e.1 ≠ descriptor }

/-- The process with a file behind a descriptor. -/
def connect (p : Process) (descriptor number : Nat) : Process :=
  { p.close descriptor with descriptors := (descriptor, number) :: (p.close descriptor).descriptors }

/-- Writes to a descriptor. -/
def write (p : Process) (descriptor : Nat) (cs : Octets) (s : System) : System × Option Refusal :=
  if cs = [] then (s, none)
  else
    match p.number? descriptor with
    | none => (s, some .badDescriptor)
    | some n => s.write n cs

end Process

end CompilerFuzz.Host
