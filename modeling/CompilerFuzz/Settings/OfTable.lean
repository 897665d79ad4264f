/-
  CompilerFuzz.Settings.OfTable

  Settings out of a TOML table. A section may be written as a table, by the names of its
  fields, or as an array, by their places; what is missing takes its default, what is
  unknown is passed over, and a value that does not fit its field spoils the whole.
-/
import CompilerFuzz.Settings.Basic
import CompilerFuzz.Span.Written
import CompilerFuzz.Toml.Document

namespace CompilerFuzz

open CompilerFuzz.Campaign CompilerFuzz.Toml

namespace Toml.Value

/-! ## Single values -/

/-- A text. -/
def string? : Value → Option String
  | .string s => some s
  | _ => none

/-- A list of texts. -/
def strings? : Value → Option (List String)
  | .array items => items.mapM string?
  | _ => none

/-- A number below `limit`. -/
def below? (limit : Nat) : Value → Option Nat
  | .integer n => if 0 ≤ n ∧ n < limit then some n.toNat else none
  | _ => none

/-- A number of 8 bits. -/
def word8? (v : Value) : Option UInt8 :=
  (v.below? 0x100).map UInt8.ofNat

/-- A number of 32 bits. -/
def word32? (v : Value) : Option UInt32 :=
  (v.below? 0x100000000).map UInt32.ofNat

/-- A written span. -/
def span? (v : Value) : Option Span :=
  v.string?.bind fun s => Span.read? s.toList

/-- Is this a table or an array without anything in it? -/
def isVoid : Value → Bool
  | .table [] | .array [] => true
  | _ => false

/-- The count of attempts: the only entry of a table, or the first item of an array. -/
def attempts? : Value → Option UInt32
  | .table [(name, v)] => if name = "attempts" then v.word32? else none
  | .array (v :: _) => v.word32?
  | _ => none

/-- A generator policy: its name, or a table whose only key is its name. -/
def policy? : Value → Option Policy
  | .string name =>
    if name = "abort" then some .abort else if name = "skip" then some .skip else none
  | .table [(name, data)] =>
    if name = "abort" then if data.isVoid then some .abort else none
    else if name = "skip" then if data.isVoid then some .skip else none
    else if name = "retry" then data.attempts?.map .retry
    else none
  | _ => none

/-! ## Sections -/

/-- May a section be written as this value? A date is one without fields. -/
def isSection : Value → Bool
  | .table _ | .array _ | .dateTime _ => true
  | _ => false

/-- What a section holds for a field: under its name, or at its place. -/
def slot? (name : String) (place : Nat) : Value → Option Value
  | .table entries => entries.lookup name
  | .array items => items[place]?
  | _ => none

/-- The value of a field, or its default if the section has nothing for it. -/
def field? {α : Type} (decode : Value → Option α) (default : α) (name : String) (place : Nat)
    (v : Value) : Option α :=
  match v.slot? name place with
  | none => some default
  | some v => decode v

end Toml.Value

/-- The toolchain that a section describes. -/
def ToolchainSettings.ofSection? (v : Value) : Option ToolchainSettings := do
  let d := ToolchainSettings.default
  let generator ← v.field? Value.string? d.generator "generator" 0
  let generatorArgs ← v.field? Value.strings? d.generatorArgs "generator_args" 1
  let compiler ← v.field? Value.string? d.compiler "compiler" 2
  let optimizer ← v.field? Value.string? d.optimizer "optimizer" 3
  let includeDirs ← v.field? Value.strings? d.includeDirs "include_dirs" 4
  let compilerFlags ← v.field? Value.strings? d.compilerFlags "compiler_flags" 5
  let normalizationPass ← v.field? Value.string? d.normalizationPass "normalization_pass" 6
  pure ⟨generator, generatorArgs, compiler, optimizer, includeDirs, compilerFlags, normalizationPass⟩

/-- The workspace that a section describes. -/
def WorkspaceSettings.ofSection? (v : Value) : Option WorkspaceSettings := do
  let d := WorkspaceSettings.default
  let dir ← v.field? Value.string? d.dir "dir" 0
  let sourceName ← v.field? Value.string? d.sourceName "source_name" 1
  let irName ← v.field? Value.string? d.irName "ir_name" 2
  let binaryName ← v.field? Value.string? d.binaryName "binary_name" 3
  pure ⟨dir, sourceName, irName, binaryName⟩

/-- The campaign that a section describes. -/
def CampaignSettings.ofSection? (v : Value) : Option CampaignSettings := do
  let d := CampaignSettings.default
  let timeBudget ← v.field? Value.span? d.timeBudget "time_budget" 0
  let level ← v.field? Value.word8? d.level "opt_level" 1
  let singlePass ← v.field? (fun v => v.string?.map some) d.singlePass "single_pass" 2
  let policy ← v.field? Value.policy? d.policy "on_generator_failure" 3
  pure ⟨timeBudget, level, singlePass, policy⟩

namespace Settings

/-- One section of a document, or its default if the document has none. -/
def sectionOf? {α : Type} (ofSection? : Value → Option α) (default : α) (name : String) (t : Table) :
    Option α :=
  match t.lookup name with
  | none => some default
  | some v => if v.isSection then ofSection? v else none

/-- The settings that a document describes. -/
def ofTable? (t : Table) : Option Settings := do
  let toolchain ← sectionOf? ToolchainSettings.ofSection? .default "toolchain" t
  let workspace ← sectionOf? WorkspaceSettings.ofSection? .default "workspace" t
  let campaign ← sectionOf? CampaignSettings.ofSection? .default "campaign" t
  pure ⟨toolchain, workspace, campaign⟩

/-- The settings that a text describes. -/
def ofText (text : String) : Except SettingsError Settings :=
  match Toml.read? text.toList with
  | none => .error (.unparsable .malformed)
  | some t =>
    match ofTable? t with
    | none => .error (.unparsable .unfitting)
    | some s => .ok s

end Settings

end CompilerFuzz
