/-
  CompilerFuzz.CommandLine.Perform

  What the program does for a command line. A triage changes nothing and prints a whole
  report or none; a campaign starts only when its settings are loaded and its plan is
  valid, and ends with one line of summary or with a fault.
-/
import CompilerFuzz.Campaign.Progress
import CompilerFuzz.Campaign.Run
import CompilerFuzz.CommandLine.Fault
import CompilerFuzz.CommandLine.Source

namespace CompilerFuzz.CommandLine

open CompilerFuzz.Campaign CompilerFuzz.Files CompilerFuzz.Text CompilerFuzz.Triage

/-- What a run of the program leaves behind. -/
structure Transcript where
  exit : Nat
  stdout : String
  stderr : String
  world : World
  deriving DecidableEq, Repr

namespace Transcript

/-- The exit status of a fault. -/
def faultStatus : Nat := 1

/-- The exit status of a command line that is refused. -/
def usageStatus : Nat := 2

/-- A run that ends well. -/
def success (stdout stderr : String) (w : World) : Transcript := ⟨0, stdout, stderr, w⟩

/-- A run that ends with a fault, after some output on the standard error. -/
def failure (f : Fault) (stderr : String) (w : World) : Transcript :=
  ⟨faultStatus, "", stderr ++ f.text, w⟩

end Transcript

/-! ## Triage -/

/-- The printed report of a log. -/
def triage (files : Tree) (o : TriageOptions) : Except Fault String :=
  match Report.ofFile o.dialect files o.log with
  | .error e => .error ⟨"Failed to triage " ++ o.log, e.causes⟩
  | .ok r => .ok (r.render o.color)

/-! ## Campaigns -/

/-- What is to be run, after the settings are loaded and changed by the options. -/
def effectiveJob (files : Tree) (environment : Option String) (config : Option Path)
    (o : FuzzOptions) : Except Fault Job :=
  let source := Source.choose config environment files
  match source.load files with
  | .error e => .error ⟨"Failed to load config from " ++ source.print, e.causes⟩
  | .ok loaded =>
    let settings := o.override loaded
    match settings.campaign.plan with
    | .error e =>
      .error ⟨"Invalid campaign configuration", (SettingsError.invalid e.message).causes⟩
    | .ok plan => .ok ⟨settings.toolchain, settings.workspace.artifacts, plan⟩

/-- What one event shows on the terminal. -/
def shown (budget : Span) : Event → String
  | .update elapsed executed => "\r" ++ Progress.line elapsed budget executed
  | .finish elapsed executed => "\r" ++ Progress.line elapsed budget executed ++ "\n"
  | .call .. | .reading _ | .stopCheck _ => ""

/-- What a history shows on the terminal. -/
def progressText (quiet : Bool) (budget : Span) (h : History) : String :=
  if quiet then "" else String.join (h.map (shown budget))

/-- The line that sums up a campaign. -/
def summaryLine (s : Summary) : String :=
  "Executed " ++ numeralText s.executed ++ " programs in " ++ s.elapsed.seconds.fixedText 1 ++ "s ("
    ++ numeralText s.generatorFailures ++ " generator failures)"
    ++ (if s.interrupted then ", interrupted" else "") ++ "\n"

/-- Runs a campaign; `none` if its loop is not over after `fuel` turns. -/
def runCampaign (env : Environment) (fuel : Nat) (quiet : Bool) (job : Job) (files : Tree) :
    Option Transcript :=
  match (Session.start files).run env fuel job with
  | none => none
  | some (result, s) =>
    let progress := progressText quiet job.plan.budget s.world.history
    -- the standard output holds nothing but the summary, progress is shown on the standard error
    some <| match result with
      | .ok summary => .success (summaryLine summary) progress s.world
      | .error e => .failure ⟨"Fuzz campaign aborted by toolchain failure", e.causes⟩ progress s.world

/-! ## Command lines -/

/-- The program's name. -/
def programName : String := "optfuzz"

/-- The program's version. -/
def programVersion : String := "0.1.0"

/-- How the program is used. -/
def usage : String :=
  "Usage: " ++ programName ++ " [OPTIONS] <COMMAND>\n\nCommands:\n"
    ++ "  fuzz    Run a time-boxed fuzz campaign\n"
    ++ "  triage  Reduce a log file to a pass/warn/fail report\n"
    ++ "  help    Print this message\n"

/-- The text of a notice. -/
def Notice.text : Notice → String
  | .help => usage
  | .version => programName ++ " " ++ programVersion ++ "\n"

/-- What the program finds when it is started. -/
structure Surroundings where
  /-- The value of the variable that may name a settings file. -/
  config : Option String
  files : Tree

/-- Carries out a command. How many turns a campaign may take depends on the budget. -/
def perform (env : Environment) (fuel : Span → Nat) (here : Surroundings) (a : Arguments) :
    Option Transcript :=
  let start : World := ⟨here.files, []⟩
  match a.command with
  | .triage o =>
    match triage here.files o with
    | .error f => some (.failure f "" start)
    | .ok report => some (.success report "" start)
  | .fuzz o =>
    match effectiveJob here.files here.config a.config o with
    | .error f => some (.failure f "" start)
    | .ok job => runCampaign env (fuel job.plan.budget) o.quiet job here.files

/-- Does what a command line asks for. -/
def run (env : Environment) (fuel : Span → Nat) (here : Surroundings) (words : List String) :
    Option Transcript :=
  let start : World := ⟨here.files, []⟩
  match Request.read? words with
  | none => some ⟨Transcript.usageStatus, "", usage, start⟩
  | some (.notice n) => some (.success n.text "" start)
  | some (.perform a) => perform env fuel here a

end CompilerFuzz.CommandLine
