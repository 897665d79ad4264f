/-
  CompilerFuzz.Settings.Written

  The written form of settings: a TOML document of three tables with every field in a
  fixed order. A pass is written only if one is set, and a policy with data takes a table
  of its own at the end.
-/
import CompilerFuzz.Settings.Basic
import CompilerFuzz.Span.Written
import CompilerFuzz.Toml.Written

namespace CompilerFuzz

open CompilerFuzz.Campaign CompilerFuzz.Toml

/-- The table of the toolchain. -/
def ToolchainSettings.written (t : ToolchainSettings) : Section where
  path := ["toolchain"]
  entries :=
    [ ("generator", .string t.generator), ("generator_args", .strings t.generatorArgs),
      ("compiler", .string t.compiler), ("optimizer", .string t.optimizer),
      ("include_dirs", .strings t.includeDirs), ("compiler_flags", .strings t.compilerFlags),
      ("normalization_pass", .string t.normalizationPass) ]

/-- The table of the workspace. -/
def WorkspaceSettings.written (w : WorkspaceSettings) : Section where
  path := ["workspace"]
  entries :=
    [ ("dir", .string w.dir), ("source_name", .string w.sourceName),
      ("ir_name", .string w.irName), ("binary_name", .string w.binaryName) ]

/-- The entry of a policy in its table, if a name is enough. -/
def policyEntries : Policy → List (String × Entry)
  | .abort => [("on_generator_failure", .string "abort")]
  | .skip => [("on_generator_failure", .string "skip")]
  | .retry _ => []

/-- The table of a policy, if it has data. -/
def policySections : Policy → List Section
  | .abort | .skip => []
  | .retry n => [⟨["campaign", "on_generator_failure", "retry"], [("attempts", .number n.toNat)]⟩]

/-- The table of the campaign. -/
def CampaignSettings.written (c : CampaignSettings) : Section where
  path := ["campaign"]
  entries :=
    [("time_budget", .string c.timeBudget.text), ("opt_level", .number c.level.toNat)]
      ++ c.singlePass.toList.map (fun name => ("single_pass", .string name))
      ++ policyEntries c.policy

namespace Settings

/-- The tables of settings. -/
def sections (s : Settings) : List Section :=
  [s.toolchain.written, s.workspace.written, s.campaign.written] ++ policySections s.campaign.policy

/-- The written form of settings. -/
def text (s : Settings) : String :=
  String.ofList (Toml.write s.sections)

end Settings

end CompilerFuzz
