/-
  CompilerFuzz.Settings.Basic

  The settings of the program: where the tools are, where the transient files go, and
  the defaults of a campaign. Every field has a built-in default.
-/
import CompilerFuzz.Campaign.Plan
import CompilerFuzz.Files.Cause
import CompilerFuzz.Files.Path

namespace CompilerFuzz

open CompilerFuzz.Campaign CompilerFuzz.Files

/-- The external tools and their flags. -/
structure ToolchainSettings where
  generator : Path
  generatorArgs : List String
  compiler : Path
  optimizer : Path
  includeDirs : List Path
  compilerFlags : List String
  /-- The pass that runs before the pass under test. -/
  normalizationPass : String
  deriving DecidableEq, Repr

/-- Where the transient files go. -/
structure WorkspaceSettings where
  dir : Path
  sourceName : String
  irName : String
  binaryName : String
  deriving DecidableEq, Repr

/-- The campaign as the settings describe it; nothing is validated yet. -/
structure CampaignSettings where
  timeBudget : Span
  level : UInt8
  /-- Set for a campaign on one pass. -/
  singlePass : Option String
  policy : Policy
  deriving DecidableEq, Repr

/-- All settings. -/
structure Settings where
  toolchain : ToolchainSettings
  workspace : WorkspaceSettings
  campaign : CampaignSettings
  deriving DecidableEq, Repr

/-- The built-in tools, found on the search path. -/
def ToolchainSettings.default : ToolchainSettings where
  generator := "csmith"
  generatorArgs := []
  compiler := "clang"
  optimizer := "opt"
  includeDirs := []
  compilerFlags := ["-Wno-everything"]
  normalizationPass := "mem2reg"

/-- The built-in places, in the working directory. -/
def WorkspaceSettings.default : WorkspaceSettings where
  dir := "."
  sourceName := "random.c"
  irName := "random.ll"
  binaryName := "random"

/-- The built-in campaign: one minute at the highest level. -/
def CampaignSettings.default : CampaignSettings where
  timeBudget := Span.ofSecs 60
  level := 3
  singlePass := none
  policy := .abort

/-- The built-in settings. -/
def Settings.default : Settings where
  toolchain := .default
  workspace := .default
  campaign := .default

/-- The files that every iteration overwrites. -/
structure Artifacts where
  source : Path
  ir : Path
  binary : Path
  deriving DecidableEq, Repr

/-- The three files. -/
def Artifacts.all (a : Artifacts) : List Path := [a.source, a.ir, a.binary]

/-- The files in the workspace directory. -/
def WorkspaceSettings.artifacts (w : WorkspaceSettings) : Artifacts where
  source := Path.join w.dir w.sourceName
  ir := Path.join w.dir w.irName
  binary := Path.join w.dir w.binaryName

/-- The mode that the settings ask for: a single pass if one is named. -/
def CampaignSettings.mode (c : CampaignSettings) : Mode :=
  match c.singlePass with
  | some name => .singlePass name
  | none => .pipeline c.level

/-- The plan that the settings describe, if it is valid. -/
def CampaignSettings.plan (c : CampaignSettings) : Except PlanError Plan :=
  Plan.make c.timeBudget c.mode c.policy

/-- What is wrong with the text of settings. -/
inductive TextFault
  /-- The text is no TOML. -/
  | malformed
  /-- The text is TOML, but a value does not fit its field. -/
  | unfitting
  deriving DecidableEq, Repr

/-- The words for a fault. -/
def TextFault.message : TextFault → String
  | .malformed => "the text is not a TOML document"
  | .unfitting => "a value does not fit its field"

/-- Why settings could not be had. -/
inductive SettingsError
  /-- The file cannot be read. -/
  | unreadable (path : Path) (cause : Cause)
  /-- The text does not describe settings. -/
  | unparsable (fault : TextFault)
  /-- The values make no campaign. -/
  | invalid (reason : String)
  deriving DecidableEq, Repr

/-- The message of an error. -/
def SettingsError.message : SettingsError → String
  | .unreadable path cause => "failed to read config file " ++ path ++ ": " ++ cause.message
  | .unparsable fault => "failed to parse TOML: " ++ fault.message
  | .invalid reason => "invalid configuration: " ++ reason

end CompilerFuzz
