/-
  CompilerFuzz.Host.Rehearsal

  A campaign rehearsed against scripted tools. The script says, call by call, what each of
  three stand-ins does; the last entry repeats. The clock of a rehearsal goes on by one
  tick with every event and by the whole of every sleep, so a rehearsal with a budget ends.
-/
import CompilerFuzz.Campaign.Run
import CompilerFuzz.Host.Signal

namespace CompilerFuzz.Host

open CompilerFuzz.Campaign CompilerFuzz.Files CompilerFuzz.Text

/-- The tools that a script stands in for. -/
inductive Role
  | generator
  | compiler
  | optimizer
  deriving DecidableEq, Repr

/-- The name of a tool. -/
def Role.print : Role → String
  | .generator => "generator"
  | .compiler => "compiler"
  | .optimizer => "optimizer"

/-- All tools. -/
def Role.all : List Role := [.generator, .compiler, .optimizer]

/-- Where the stand-ins are. -/
def standInDirectory : String := "tools"

/-- Where a rehearsal keeps its books. -/
def bookDirectory : String := "ctl"

/-- The place of a stand-in. -/
def Role.location (r : Role) : Location := Location.home ++ [standInDirectory, r.print]

/-- The path of a stand-in. -/
def Role.program (r : Role) : Path := standInDirectory ++ "/" ++ r.print

/-- The files with the stand-ins among them. -/
def setStage (files : Tree) : Tree :=
  Role.all.foldl (fun t r => t.set r.location (.file []))
    ((files.set (Location.home ++ [bookDirectory]) .directory).set
      (Location.home ++ [standInDirectory]) .directory)

/-- What belongs to the stage of a rehearsal and not to the files that it is about. -/
def isBackstage (p : Path) : Bool :=
  match (Path.pieces p.toList).map String.ofList with
  | top :: _ => top == standInDirectory || top == bookDirectory
  | [] => false

/-- The stand-in that a path leads to. -/
def Role.ofProgram? (files : Tree) (p : Path) : Option Role :=
  if '/' ∈ p.toList then
    match files.locate p with
    | .ok target =>
      if target.slash then none
      else Role.all.find? fun r =>
        target.location == r.location && (files.find? r.location).any (· != .directory)
    | .error _ => none
  else none

/-- What a stand-in does when it is called. -/
structure Act where
  stdout : Bytes
  stderr : Bytes
  /-- Written to the file that the arguments name as output. -/
  out : Option Bytes
  sleepMillis : Nat
  /-- Requests a stop. -/
  stop : Bool
  /-- The signal that it sends itself. -/
  signal : Option Nat
  exit : Int
  deriving DecidableEq, Repr

/-- A call at which nothing happens. -/
def Act.idle : Act := ⟨[], [], none, 0, false, none, 0⟩

/-- What an act does to the files. -/
def Act.effect (a : Act) (args : List String) (files : Tree) : Tree :=
  match a.out, outputArgument? args with
  | some content, some path =>
    match files.write path content with
    | .ok files => files
    | .error _ => files
  | _, _ => files

/-- How an act ends. -/
def Act.ending (a : Act) : Exit where
  status := if a.signal.any Signal.isFatal then none else some (a.exit % 256)
  stdout := a.stdout
  stderr := a.stderr

/-- When a stop is requested. -/
structure StopRule where
  /-- From the beginning. -/
  before : Bool
  /-- With this update of the progress. -/
  afterUpdates : Option Nat
  /-- By a tool. -/
  fromTool : Bool
  deriving DecidableEq, Repr

/-- A stop is never requested. -/
def StopRule.never : StopRule := ⟨false, none, false⟩

/-- What the stand-ins do, and when a stop is requested. -/
structure Script where
  generator : List Act
  compiler : List Act
  optimizer : List Act
  stop : StopRule
  deriving DecidableEq, Repr

namespace Script

/-- The acts of one tool. -/
def acts (s : Script) : Role → List Act
  | .generator => s.generator
  | .compiler => s.compiler
  | .optimizer => s.optimizer

/-- What a tool does after `n` calls. -/
def act (s : Script) (r : Role) (n : Nat) : Act :=
  ((s.acts r)[n]?).getD ((s.acts r).getLast?.getD .idle)

/-! ## What has happened -/

/-- The stand-in that an event shows at work. -/
def played? : Event → Option Role
  | .call call files (.ended _) => Role.ofProgram? files call.program
  | _ => none

/-- How often a tool has been called. -/
def calls (h : History) (r : Role) : Nat :=
  h.countP fun e => played? e == some r

/-- The acts of one tool up to now. -/
def played (s : Script) (h : History) (r : Role) : List Act :=
  (List.range (calls h r)).map (s.act r)

/-- Everything that has been acted up to now. -/
def allPlayed (s : Script) (h : History) : List Act :=
  Role.all.flatMap (s.played h)

/-! ## Answers -/

/-- Nanoseconds in a millisecond. -/
def nanosPerMilli : Nat := 1000000

/-- Nanoseconds that one event takes. -/
def tick : Nat := 1000

/-- The time after a history. -/
def clock (s : Script) (h : History) : Span :=
  let slept := ((s.allPlayed h).map Act.sleepMillis).foldl (· + ·) 0
  Span.ofNanos (min (slept * nanosPerMilli + tick * (h.length + 1)) maxWord64) (Nat.min_le_right ..)

/-- Is a stop requested by now? -/
def stopRequested (s : Script) (h : History) : Bool :=
  let updates := h.countP fun e => match e with
    | .update .. => true
    | _ => false
  s.stop.before
    || s.stop.afterUpdates.any (fun n => 1 ≤ n && n ≤ updates)
    || (s.stop.fromTool && (s.allPlayed h).any Act.stop)

/-- The environment of a rehearsal. What is no stand-in is answered by `others`. -/
def environment (s : Script) (others : Tree → Invocation → Response) : Environment where
  respond h files call :=
    match Role.ofProgram? files call.program with
    | none => others files call
    | some r =>
      let a := s.act r (calls h r)
      .ran a.ending (a.effect call.args)
  elapsed := s.clock
  latency _ := Span.ofNanos tick (by decide)
  stop := s.stopRequested

/-- As many turns as a rehearsal with this budget can take: each begins at a later tick. -/
def enough (budget : Span) : Nat :=
  budget.totalNanos / tick + 1

/-! ## What the stand-ins saw -/

/-- What one call of a stand-in saw: its arguments, which artifacts were there as files, and
    the content of the file that it reads. -/
structure Sighting where
  role : Role
  args : List String
  sourceSeen : Bool
  irSeen : Bool
  binarySeen : Bool
  input : Option Bytes
  deriving DecidableEq, Repr

/-- The file that a tool reads. -/
def inputOf (a : Artifacts) : Role → Option Path
  | .generator => none
  | .compiler => some a.source
  | .optimizer => some a.ir

/-- What the stand-in of an event saw. -/
def sighting? (a : Artifacts) (e : Event) : Option Sighting :=
  match e with
  | .call call files (.ended _) =>
    (Role.ofProgram? files call.program).map fun r =>
      ⟨r, call.args, files.isFile a.source, files.isFile a.ir, files.isFile a.binary,
        (inputOf a r).bind fun p => (files.read p).toOption⟩
  | _ => none

/-- What the stand-ins saw, call by call. -/
def sightings (a : Artifacts) (h : History) : List Sighting :=
  h.filterMap (sighting? a)

end Script

end CompilerFuzz.Host
