/-
  CompilerFuzz.Campaign.Run

  A whole run: iterations one after another until the budget is spent, a stop is requested
  or an error ends them. The clock and the stop flag are looked at between iterations
  only, and an error that comes back while a stop is requested counts as an interruption.
  However a run ends, its artifacts are removed.
-/
import CompilerFuzz.Campaign.Cleanup
import CompilerFuzz.Campaign.Iteration
import CompilerFuzz.Campaign.Latency
import CompilerFuzz.Campaign.Lifecycle

namespace CompilerFuzz.Campaign

open CompilerFuzz.Files

/-- What is counted during a run. -/
structure Tally where
  /-- Iterations whose every step succeeded. -/
  executed : Nat
  /-- Calls of the generator that failed. -/
  generatorFailures : Nat
  latency : Latency
  deriving DecidableEq, Repr

/-- Nothing counted yet. -/
def Tally.zero : Tally := ⟨0, 0, .empty⟩

/-- How the iterations ended. -/
inductive Ending
  /-- The budget is spent. -/
  | spent
  /-- A stop was requested. -/
  | interrupted
  | failed (e : CampaignError)
  deriving DecidableEq, Repr

/-- The iterations of a run: how they ended, what was counted, the world after them. -/
structure Course where
  ending : Ending
  tally : Tally
  world : World

/-- Looks at the stop flag. -/
def checkStop (env : Environment) (w : World) : Bool × World :=
  (env.stop w.history, w.log (.stopCheck (env.stop w.history)))

/-- Reads the clock. -/
def readClock (env : Environment) (w : World) : Span × World :=
  (env.elapsed w.history, w.log (.reading (env.elapsed w.history)))

/-- Reads the clock and shows the progress. -/
def showProgress (env : Environment) (executed : Nat) (w : World) : Span × World :=
  let (elapsed, w) := readClock env w
  (elapsed, w.log (.update elapsed executed))

/-- The tally after an iteration that ended without an error. -/
def Tally.count (t : Tally) (executed : Bool) (failures : Nat) (latency : Span) : Tally :=
  if executed then ⟨t.executed + 1, t.generatorFailures + failures, t.latency.record latency⟩
  else { t with generatorFailures := t.generatorFailures + failures }

section Count

variable (t : Tally) (executed : Bool) (failures : Nat) (latency : Span)

@[simp] theorem Tally.executed_count :
    (t.count executed failures latency).executed = t.executed + executed.toNat := by
  cases executed <;> rfl

@[simp] theorem Tally.generatorFailures_count :
    (t.count executed failures latency).generatorFailures = t.generatorFailures + failures := by
  cases executed <;> rfl

@[simp] theorem Tally.count_latency_count :
    (t.count executed failures latency).latency.count = t.latency.count + executed.toNat := by
  cases executed <;> rfl

end Count

/-- A run between two iterations: the last clock reading, what is counted, the world. -/
structure Pause where
  elapsed : Span
  tally : Tally
  world : World

/-- Where one turn of the loop leads. -/
inductive Turn
  | next (p : Pause)
  | finished (c : Course)

/-- What becomes of a run after an iteration. -/
def settle (env : Environment) (tally : Tally) (stage : Stage Bool) : Turn :=
  match stage.result with
  | .ok executed =>
    let tally := tally.count executed stage.failures (env.latency stage.world.history)
    let (elapsed, w) := showProgress env tally.executed stage.world
    .next ⟨elapsed, tally, w⟩
  | .error e =>
    -- the failures of the generator count even though the iteration does not
    let tally := { tally with generatorFailures := tally.generatorFailures + stage.failures }
    -- an interrupt reaches the tools as well, so an error that comes with one tells nothing
    match checkStop env stage.world with
    | (true, w) => .finished ⟨.interrupted, tally, w⟩
    | (false, w) => .finished ⟨.failed e, tally, w⟩

/-- One turn of the loop: the run is over at once, or an iteration is done. -/
def turn (env : Environment) (job : Job) (p : Pause) : Turn :=
  -- the budget comes first: once it is spent, the flag is not looked at any more
  if ¬ p.elapsed < job.plan.budget then .finished ⟨.spent, p.tally, p.world⟩
  else
    match checkStop env p.world with
    | (true, w) => .finished ⟨.interrupted, p.tally, w⟩
    | (false, w) => settle env p.tally (iterate env job w)

/-- Goes on with the rest of the run, unless it is over. -/
def Turn.andThen (t : Turn) (rest : Pause → Option Course) : Option Course :=
  match t with
  | .next p => rest p
  | .finished c => some c

/-- The turns from a pause on; `none` if the run is not over after `fuel` of them. -/
def turns (env : Environment) (job : Job) : (fuel : Nat) → Pause → Option Course
  | 0, _ => none
  | fuel + 1, p => (turn env job p).andThen (turns env job fuel)

theorem turns_succ (env : Environment) (job : Job) (fuel : Nat) (p : Pause) :
    turns env job (fuel + 1) p = (turn env job p).andThen (turns env job fuel) := rfl

/-- Makes the directory for the source file, if its path has one. -/
def prepare (job : Job) (w : World) : Except CampaignError Unit × World :=
  match Path.parent? job.artifacts.source with
  | none => (.ok (), w)
  | some dir =>
    match w.files.makeDirectories dir with
    | (files, .ok ()) => (.ok (), w.withFiles files)
    | (files, .error cause) => (.error (.io dir cause), w.withFiles files)

/-- The pause before the first iteration. -/
def firstPause (env : Environment) (w : World) : Pause :=
  let (elapsed, w) := showProgress env 0 w
  ⟨elapsed, .zero, w⟩

/-- Everything between the start of a run and its last progress report. -/
def course (env : Environment) (fuel : Nat) (job : Job) (w : World) : Option Course :=
  match prepare job w with
  | (.error e, w) => some ⟨.failed e, .zero, w⟩
  | (.ok (), w) => turns env job fuel (firstPause env w)

/-- What a run that came to its end reports. -/
structure Summary where
  executed : Nat
  generatorFailures : Nat
  elapsed : Span
  state : Lifecycle
  /-- A stop ended the run before its budget was spent. -/
  interrupted : Bool
  latency : Latency
  deriving DecidableEq, Repr

/-- The result of a run. -/
abbrev RunResult := Except CampaignError Summary

/-- The result of a finished course. -/
def Course.result (c : Course) (elapsed : Span) (state : Lifecycle) : RunResult :=
  let summary (interrupted : Bool) : Summary :=
    ⟨c.tally.executed, c.tally.generatorFailures, elapsed, state, interrupted, c.tally.latency⟩
  match c.ending with
  | .spent => .ok (summary false)
  | .interrupted => .ok (summary true)
  | .failed e => .error e

/-- The state in which a course leaves its campaign. -/
def Ending.state : Ending → Lifecycle
  | .spent | .interrupted => .completed
  | .failed _ => .aborted

/-- A campaign: its state, and the world it runs in. -/
structure Session where
  state : Lifecycle
  world : World
  deriving DecidableEq, Repr

/-- A campaign that has not run. -/
def Session.start (files : Tree) : Session := ⟨.idle, ⟨files, []⟩⟩

/-- Shows the last progress, settles the state, and removes the artifacts. -/
def Session.close (env : Environment) (job : Job) (state : Lifecycle) (c : Course) :
    RunResult × Session :=
  let (elapsed, w) := readClock env c.world
  let w := w.log (.finish elapsed c.tally.executed)
  -- whatever the result, and after everything else that was to be seen
  let w := w.withFiles (removeArtifacts job.artifacts w.files).1
  match state.move c.ending.state with
  | .ok final => (c.result elapsed final, ⟨final, w⟩)
  | .error e => (.error e, ⟨state, w⟩)

/-- Runs the campaign; `none` if its loop is not over after `fuel` turns. A campaign that has
    run is not run again. -/
def Session.run (env : Environment) (fuel : Nat) (job : Job) (s : Session) :
    Option (RunResult × Session) :=
  match s.state.move .running with
  -- a refused run touches nothing, not even the artifacts
  | .error e => some (.error e, s)
  | .ok state =>
    match course env fuel job s.world with
    | none => none
    | some c => some (Session.close env job state c)

/-- Removes the artifacts. -/
def Session.cleanup (job : Job) (s : Session) : Session :=
  { s with world := s.world.withFiles (removeArtifacts job.artifacts s.world.files).1 }

/-- Puts a node at a path, as somebody else would. -/
def Session.place (path : Path) (node : Node) (s : Session) : Session :=
  { s with world := s.world.withFiles (s.world.files.place path node) }

end CompilerFuzz.Campaign
