/-
  CompilerFuzz.CommandLine.Source

  Where the settings of a campaign come from, and what the command line changes in them.
  One source is chosen; if it fails, no other is tried.
-/
import CompilerFuzz.CommandLine.Arguments
import CompilerFuzz.Settings.OfFile

namespace CompilerFuzz.CommandLine

open CompilerFuzz.Campaign CompilerFuzz.Files CompilerFuzz.Text

/-- The environment variable that may name a settings file. -/
def configVariable : String := "OPTFUZZ_CONFIG"

/-- The value of a variable; one that is no text counts as none. -/
def variableText? (raw : Option Bytes) : Option String := raw.bind textOf?

/-- The settings file of a working directory. -/
def localConfig : Path := "optfuzz.toml"

/-- Where settings can come from. -/
inductive Source
  /-- The file named on the command line. -/
  | argument (path : Path)
  /-- The file named by the environment variable. -/
  | environment (path : Path)
  /-- The file of the working directory. -/
  | workingDirectory
  | builtIn
  deriving DecidableEq, Repr

namespace Source

/-- The file of the working directory, if it is there, and the built-in settings otherwise. -/
def fallback (files : Tree) : Source :=
  if files.exists? localConfig then .workingDirectory else .builtIn

/-- The source to use: the file named on the command line, or else the first of the others
    that is there. -/
def choose (argument : Option Path) (environment : Option String) (files : Tree) : Source :=
  match argument, environment with
  -- a file that was asked for is used even if it is not there, which is an error later on
  | some path, _ => .argument path
  | none, some path => if files.exists? path then .environment path else fallback files
  | none, none => fallback files

/-- The settings of a source. -/
def load (files : Tree) : Source → Except SettingsError Settings
  | .argument path => Settings.ofFile files path
  | .environment path => Settings.ofFile files path
  | .workingDirectory => Settings.ofFile files localConfig
  | .builtIn => .ok .default

/-- The name of a source. -/
def print : Source → String
  | .argument path => path
  | .environment path => configVariable ++ "=" ++ path
  | .workingDirectory => localConfig
  | .builtIn => "built-in defaults"

end Source

namespace FuzzOptions

/-- Extra attempts where none are given. -/
def defaultRetries : UInt32 := 1

/-- The time budget that the options ask for. -/
def budget? (o : FuzzOptions) : Option Span :=
  o.seconds.map fun seconds => .ofSecs seconds.toNat

/-- The policy that the options ask for. -/
def policy? (o : FuzzOptions) : Option Policy :=
  o.policy.map fun
    | .abort => .abort
    | .skip => .skip
    -- retries given with another policy, or with none, are passed over
    | .retry => .retry (o.retries.getD defaultRetries)

/-- The settings with what the options change. -/
def override (o : FuzzOptions) (s : Settings) : Settings where
  toolchain := s.toolchain
  workspace := { s.workspace with dir := o.dir.getD s.workspace.dir }
  campaign :=
    { timeBudget := o.budget?.getD s.campaign.timeBudget
      level := o.level.getD s.campaign.level
      singlePass := o.pass.or s.campaign.singlePass
      policy := o.policy?.getD s.campaign.policy }

end FuzzOptions

end CompilerFuzz.CommandLine
