/-
  CompilerFuzz.Campaign.Tool

  Calls of external tools: which step of an iteration a call performs, what is started
  with which arguments, how a call ended, and the errors that end a campaign.
-/
import CompilerFuzz.Files.Cause
import CompilerFuzz.Files.Path
import CompilerFuzz.Text.Blank
import CompilerFuzz.Text.Numeral
import CompilerFuzz.Text.Utf8

namespace CompilerFuzz.Campaign

open CompilerFuzz.Files CompilerFuzz.Text

/-- The steps of an iteration that call a tool. -/
inductive Step
  /-- The generator writes the source file. -/
  | generate
  /-- The compiler builds a binary through the pipeline. -/
  | compile
  /-- The compiler writes textual intermediate code, unoptimized. -/
  | emitIr
  /-- The optimizer runs the normalization pass and the pass under test. -/
  | optimize
  deriving DecidableEq, Repr

/-- The name of a step. -/
def Step.print : Step → String
  | .generate => "generate"
  | .compile => "compile"
  | .emitIr => "emit-ir"
  | .optimize => "optimize"

/-- Where the standard output of a tool goes. -/
inductive OutputTarget
  | capture
  | discard
  /-- The file is emptied first. -/
  | file (path : Path)
  deriving DecidableEq, Repr

/-- One call of a tool. -/
structure Invocation where
  step : Step
  program : Path
  args : List String
  output : OutputTarget
  deriving DecidableEq, Repr

/-- How a tool that ran has ended: its exit status, `none` if a signal killed it, and
    what it wrote. -/
structure Exit where
  status : Option Int
  stdout : Bytes
  stderr : Bytes
  deriving DecidableEq, Repr

/-- What is known of a finished call. -/
structure Outcome where
  step : Step
  status : Option Int
  stdout : String
  stderr : String
  deriving DecidableEq, Repr

/-- What ends a campaign early. -/
inductive CampaignError
  /-- The compiler or the optimizer failed. -/
  | toolchain (step : Step) (status : Option Int) (stderr : String)
  | generator (status : Option Int) (stderr : String)
  /-- A program could not be started. -/
  | spawn (step : Step) (program : Path) (cause : Cause)
  /-- A transient file or its directory could not be made. -/
  | io (path : Path) (cause : Cause)
  | invalidTransition (source target : String)
  deriving DecidableEq, Repr

/-- An exit status in words. -/
def printStatus : Option Int → String
  | some code => "exit code " ++ integerText code
  | none => "termination by signal"

namespace CampaignError

/-- The message of an error. -/
def message : CampaignError → String
  | .toolchain step status stderr =>
    step.print ++ " step failed with " ++ printStatus status ++ ": " ++ stderr
  | .generator status stderr => "generator failed with " ++ printStatus status ++ ": " ++ stderr
  | .spawn step program cause =>
    "failed to spawn " ++ program ++ " for " ++ step.print ++ " step: " ++ cause.message
  | .io path cause => "I/O error on " ++ path ++ ": " ++ cause.message
  | .invalidTransition source target =>
    "invalid state transition from " ++ source ++ " to " ++ target

/-- The step that an error comes from, if it comes from a tool. -/
def step? : CampaignError → Option Step
  | .toolchain step .. | .spawn step .. => some step
  | .generator .. => some .generate
  | .io .. | .invalidTransition .. => none

end CampaignError

namespace Outcome

/-- How much of the standard error is kept, in bytes. -/
def stderrLimit : Nat := 4096

/-- The last bytes of a stream. -/
def tail (bs : Bytes) : Bytes :=
  bs.drop (bs.length - stderrLimit)

/-- The standard error as an error message shows it. -/
def stderrText (bs : Bytes) : String :=
  trimEndText (textOfLossy (tail bs))

/-- What is known of a call that ended as `exit`. Output sent elsewhere is not kept. -/
def ofExit (call : Invocation) (exit : Exit) : Outcome where
  step := call.step
  status := exit.status
  stdout :=
    match call.output with
    | .capture => textOfLossy exit.stdout
    | .discard | .file _ => ""
  stderr := stderrText exit.stderr

/-- Did the tool exit with status zero? -/
def success (o : Outcome) : Bool :=
  o.status == some 0

/-- The error that a failed call stands for. -/
def error (o : Outcome) : CampaignError :=
  match o.step with
  | .generate => .generator o.status o.stderr
  | step => .toolchain step o.status o.stderr

/-- The outcome itself if the call succeeded, its error otherwise. -/
def result (o : Outcome) : Except CampaignError Outcome :=
  if o.success then .ok o else .error o.error

end Outcome

end CompilerFuzz.Campaign
