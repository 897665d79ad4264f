/-
  CompilerFuzz.Proofs.Settings.Fields

  The fields of settings and how they are read.

    * `Field` lists the fields. Each has a section, a key in it, and a kind that says which values
      it takes (`FieldKind.Fits`); `decode?_eq_some_iff` says that these are the values that
      are accepted.
    * A document whose sections are tables describes settings exactly if every field is read
      from its own value, or from the lack of one (`ofTable?_eq_some_iff`).
-/
import CompilerFuzz.Proofs.Settings.RoundTrip
import CompilerFuzz.Proofs.Toml.Editing
import Mathlib.Tactic.Common

namespace CompilerFuzz.Settings

open CompilerFuzz.Campaign CompilerFuzz.Toml

/-! ## Fields -/

/-- The sections of a document. -/
inductive SectionName
  | toolchain
  | workspace
  | campaign
  deriving DecidableEq, Repr

/-- The name of a section. -/
def SectionName.text : SectionName → String
  | .toolchain => "toolchain"
  | .workspace => "workspace"
  | .campaign => "campaign"

/-- What a field holds. -/
inductive FieldKind
  | text
  | texts
  | span
  | word
  | optionalText
  | policy
  deriving DecidableEq, Repr

/-- The type of a field. -/
abbrev FieldKind.Carrier : FieldKind → Type
  | .text => String
  | .texts => List String
  | .span => Span
  | .word => UInt8
  | .optionalText => Option String
  | .policy => Policy

/-- How a field is read from a value. -/
def FieldKind.decode? : (k : FieldKind) → Value → Option k.Carrier
  | .text => Value.string?
  | .texts => Value.strings?
  | .span => Value.span?
  | .word => Value.word8?
  | .optionalText => fun v => v.string?.map some
  | .policy => Value.policy?

/-- The fields of settings. -/
inductive Field
  | generator
  | generatorArgs
  | compiler
  | optimizer
  | includeDirs
  | compilerFlags
  | normalizationPass
  | dir
  | sourceName
  | irName
  | binaryName
  | timeBudget
  | level
  | singlePass
  | policy
  deriving DecidableEq, Repr

namespace Field

/-- The section of a field. -/
def sectionName : Field → SectionName
  | .generator | .generatorArgs | .compiler | .optimizer | .includeDirs | .compilerFlags
  | .normalizationPass => .toolchain
  | .dir | .sourceName | .irName | .binaryName => .workspace
  | .timeBudget | .level | .singlePass | .policy => .campaign

/-- The key of a field in its section. -/
def key : Field → String
  | .generator => "generator"
  | .generatorArgs => "generator_args"
  | .compiler => "compiler"
  | .optimizer => "optimizer"
  | .includeDirs => "include_dirs"
  | .compilerFlags => "compiler_flags"
  | .normalizationPass => "normalization_pass"
  | .dir => "dir"
  | .sourceName => "source_name"
  | .irName => "ir_name"
  | .binaryName => "binary_name"
  | .timeBudget => "time_budget"
  | .level => "opt_level"
  | .singlePass => "single_pass"
  | .policy => "on_generator_failure"

/-- What a field holds. -/
abbrev kind : Field → FieldKind
  | .generator | .compiler | .optimizer | .normalizationPass => .text
  | .dir | .sourceName | .irName | .binaryName => .text
  | .generatorArgs | .includeDirs | .compilerFlags => .texts
  | .timeBudget => .span
  | .level => .word
  | .singlePass => .optionalText
  | .policy => .policy

/-- The value of a field in settings. -/
def get (s : Settings) : (f : Field) → f.kind.Carrier
  | .generator => s.toolchain.generator
  | .generatorArgs => s.toolchain.generatorArgs
  | .compiler => s.toolchain.compiler
  | .optimizer => s.toolchain.optimizer
  | .includeDirs => s.toolchain.includeDirs
  | .compilerFlags => s.toolchain.compilerFlags
  | .normalizationPass => s.toolchain.normalizationPass
  | .dir => s.workspace.dir
  | .sourceName => s.workspace.sourceName
  | .irName => s.workspace.irName
  | .binaryName => s.workspace.binaryName
  | .timeBudget => s.campaign.timeBudget
  | .level => s.campaign.level
  | .singlePass => s.campaign.singlePass
  | .policy => s.campaign.policy

end Field

/-- The settings with a given value in every field. -/
def ofFields (value : (f : Field) → f.kind.Carrier) : Settings where
  toolchain := ⟨value .generator, value .generatorArgs, value .compiler, value .optimizer,
    value .includeDirs, value .compilerFlags, value .normalizationPass⟩
  workspace := ⟨value .dir, value .sourceName, value .irName, value .binaryName⟩
  campaign := ⟨value .timeBudget, value .level, value .singlePass, value .policy⟩

theorem get_ofFields (value : (f : Field) → f.kind.Carrier) (f : Field) :
    f.get (ofFields value) = value f := by
  cases f <;> rfl

theorem ofFields_get (s : Settings) : ofFields (fun f => f.get s) = s := rfl

/-- Settings are determined by their fields. -/
theorem eq_of_get_eq {s s' : Settings} (h : ∀ f : Field, f.get s = f.get s') : s = s' := by
  have hvalues : (fun f => Field.get s f) = fun f => Field.get s' f := funext h
  rw [← ofFields_get s, ← ofFields_get s', hvalues]

/-! ## Reading a field -/

namespace Field

/-- What a field is read as from the value that a document has for it, if it has one. -/
def ofValue? (f : Field) : Option Value → Option f.kind.Carrier
  | none => some (f.get .default)
  | some v => f.kind.decode? v

/-- The value that a document has for a field. -/
def value? (f : Field) (t : Table) : Option Value :=
  t.inner? f.sectionName.text f.key

end Field

/-! ## Reading a section -/

namespace SectionName

/-- The fields of a section, in the order of their places. -/
def fields : SectionName → List Field
  | .toolchain => [.generator, .generatorArgs, .compiler, .optimizer, .includeDirs, .compilerFlags,
      .normalizationPass]
  | .workspace => [.dir, .sourceName, .irName, .binaryName]
  | .campaign => [.timeBudget, .level, .singlePass, .policy]

theorem mem_fields_iff {n : SectionName} {f : Field} : f ∈ n.fields ↔ f.sectionName = n := by
  cases n <;> cases f <;> decide

/-- The part of settings that a section describes. -/
abbrev Part : SectionName → Type
  | .toolchain => ToolchainSettings
  | .workspace => WorkspaceSettings
  | .campaign => CampaignSettings

/-- The part of given settings. -/
def part (s : Settings) : (n : SectionName) → n.Part
  | .toolchain => s.toolchain
  | .workspace => s.workspace
  | .campaign => s.campaign

/-- The part that a missing section describes. -/
def default : (n : SectionName) → n.Part
  | .toolchain => .default
  | .workspace => .default
  | .campaign => .default

/-- The part that a value describes. -/
def ofSection? : (n : SectionName) → Value → Option n.Part
  | .toolchain => ToolchainSettings.ofSection?
  | .workspace => WorkspaceSettings.ofSection?
  | .campaign => CampaignSettings.ofSection?

theorem ofSection?_empty (n : SectionName) : n.ofSection? (.table []) = some n.default := by
  cases n <;> rfl

/-- The reader of a section asks for just the fields of the section. -/
theorem ofSection?_eq_some_iff (n : SectionName) (entries : Table) (s : Settings) :
    n.ofSection? (.table entries) = some (n.part s) ↔
      ∀ f ∈ n.fields, f.ofValue? (entries.lookup f.key) = some (f.get s) := by
  obtain ⟨⟨_, _, _, _, _, _, _⟩, ⟨_, _, _, _⟩, ⟨_, _, _, _⟩⟩ := s
  -- a reader binds one value for each field, and the part that it makes of them fixes them all
  cases n <;>
    simp only [ofSection?, ToolchainSettings.ofSection?, WorkspaceSettings.ofSection?,
      CampaignSettings.ofSection?, part, fields, Option.bind_eq_bind, Option.bind_eq_some_iff,
      Option.pure_def, Option.some.injEq, ToolchainSettings.mk.injEq, WorkspaceSettings.mk.injEq,
      CampaignSettings.mk.injEq, existsAndEq, List.forall_mem_cons, List.not_mem_nil,
      false_imp_iff, implies_true, and_true] <;>
    rfl

end SectionName

/-- A section that is a table is read from its entries, and one that is missing as an empty one. -/
theorem sectionOf?_of_tableAt {α : Type} {ofSection? : Value → Option α} {default : α}
    {name : String} {t : Table} (hempty : ofSection? (.table []) = some default)
    (ht : t.TableAt name) :
    sectionOf? ofSection? default name t = ofSection? (.table (t.entriesAt name)) := by
  unfold sectionOf?
  cases hlookup : t.lookup name with
  | none =>
    rw [Table.entriesAt_of_lookup_eq_none hlookup]
    exact hempty.symm
  | some v =>
    obtain ⟨entries, rfl⟩ := ht v hlookup
    rw [Table.entriesAt_of_lookup hlookup]
    rfl

/-- A section of a document describes its part of the settings. -/
def SectionName.Reads (t : Table) (s : Settings) (n : SectionName) : Prop :=
  sectionOf? n.ofSection? n.default n.text t = some (n.part s)

theorem ofTable?_eq_some_iff_reads {t : Table} {s : Settings} :
    ofTable? t = some s ↔ ∀ n : SectionName, n.Reads t s := by
  unfold ofTable?
  simp only [Option.bind_eq_bind, Option.bind_eq_some_iff, Option.pure_def, Option.some.injEq]
  constructor
  · rintro ⟨toolchain, h₁, workspace, h₂, campaign, h₃, rfl⟩ n
    cases n with
    | toolchain => exact h₁
    | workspace => exact h₂
    | campaign => exact h₃
  · intro h
    exact ⟨_, h .toolchain, _, h .workspace, _, h .campaign, rfl⟩

/-- A section is read field by field. -/
theorem SectionName.reads_iff {n : SectionName} {t : Table} {s : Settings}
    (ht : t.TableAt n.text) :
    n.Reads t s ↔
      ∀ f : Field, f.sectionName = n → f.ofValue? (f.value? t) = some (f.get s) := by
  have hread : sectionOf? n.ofSection? n.default n.text t =
      n.ofSection? (.table (t.entriesAt n.text)) :=
    sectionOf?_of_tableAt n.ofSection?_empty ht
  rw [SectionName.Reads, hread, n.ofSection?_eq_some_iff]
  refine forall_congr' fun f => ?_
  rw [SectionName.mem_fields_iff]
  refine imp_congr_right ?_
  rintro rfl
  rfl

/-- The sections that a document has are tables. -/
def Sectioned (t : Table) : Prop := ∀ n : SectionName, t.TableAt n.text

/-- A document describes settings if every field is read from its own value, or is the built-in
    one where the document has no value. -/
theorem ofTable?_eq_some_iff {t : Table} (ht : Sectioned t) {s : Settings} :
    ofTable? t = some s ↔ ∀ f : Field, f.ofValue? (f.value? t) = some (f.get s) := by
  rw [ofTable?_eq_some_iff_reads]
  constructor
  · intro h f
    exact (SectionName.reads_iff (ht f.sectionName)).1 (h f.sectionName) f rfl
  · intro h n
    exact (SectionName.reads_iff (ht n)).2 fun f _ => h f

/-! ## The values that a field takes -/

/-- The values that stand for a generator policy: its name, or a table whose only key is its
    name. The count of attempts is the only entry of a table, or the first item of an array. -/
inductive PolicyForm : Value → Policy → Prop
  | abort : PolicyForm (.string "abort") .abort
  | skip : PolicyForm (.string "skip") .skip
  | abortTable {data : Value} (h : data.isVoid = true) :
      PolicyForm (.table [("abort", data)]) .abort
  | skipTable {data : Value} (h : data.isVoid = true) : PolicyForm (.table [("skip", data)]) .skip
  | retry (n : UInt32) :
      PolicyForm (.table [("retry", .table [("attempts", .integer n.toNat)])]) (.retry n)
  | retryArray (n : UInt32) (more : List Value) :
      PolicyForm (.table [("retry", .array (.integer n.toNat :: more))]) (.retry n)

/-- The value stands for `a`. -/
def FieldKind.Fits : (k : FieldKind) → Value → k.Carrier → Prop
  | .text, v, a => v = .string a
  | .texts, v, a => v = .array (a.map .string)
  | .span, v, a => ∃ text : String, v = .string text ∧ Span.read? text.toList = some a
  | .word, v, a => v = .integer a.toNat
  | .optionalText, v, a => ∃ name, v = .string name ∧ a = some name
  | .policy, v, a => PolicyForm v a

theorem string?_eq_some_iff {v : Value} {a : String} : v.string? = some a ↔ v = .string a := by
  constructor
  · intro h
    cases v with
    | string s => exact congrArg Value.string (Option.some.inj h)
    | _ => cases h
  · rintro rfl
    rfl

theorem below?_eq_some_iff {limit n : Nat} {v : Value} :
    v.below? limit = some n ↔ v = .integer n ∧ n < limit := by
  constructor
  · intro h
    cases v with
    | integer i =>
      obtain ⟨⟨hpos, hlt⟩, heq⟩ := Option.ite_none_right_eq_some.1 h
      cases heq
      exact ⟨congrArg Value.integer (Int.toNat_of_nonneg hpos).symm, by omega⟩
    | _ => cases h
  · rintro ⟨rfl, hlt⟩
    exact below?_natCast hlt

theorem word8?_eq_some_iff {v : Value} {a : UInt8} :
    v.word8? = some a ↔ v = .integer a.toNat := by
  constructor
  · intro h
    obtain ⟨n, hn, rfl⟩ := Option.map_eq_some_iff.1 h
    obtain ⟨rfl, hlt⟩ := below?_eq_some_iff.1 hn
    rw [UInt8.toNat_ofNat_of_lt' hlt]
  · rintro rfl
    exact word8?_number a

theorem word32?_eq_some_iff {v : Value} {a : UInt32} :
    v.word32? = some a ↔ v = .integer a.toNat := by
  constructor
  · intro h
    obtain ⟨n, hn, rfl⟩ := Option.map_eq_some_iff.1 h
    obtain ⟨rfl, hlt⟩ := below?_eq_some_iff.1 hn
    rw [UInt32.toNat_ofNat_of_lt' hlt]
  · rintro rfl
    rw [Value.word32?, below?_natCast a.toNat_lt, Option.map_some, UInt32.ofNat_toNat]

theorem mapM_string?_eq_some_iff {items : List Value} {a : List String} :
    items.mapM Value.string? = some a ↔ items = a.map .string := by
  induction items generalizing a with
  | nil =>
    rw [List.mapM_nil]
    constructor
    · rintro ⟨⟩
      rfl
    · intro h
      rw [List.map_eq_nil_iff.1 h.symm]
      rfl
  | cons item items ih =>
    rw [List.mapM_cons]
    simp only [Option.bind_eq_bind, Option.bind_eq_some_iff, Option.pure_def, Option.some.injEq]
    constructor
    · rintro ⟨s, hs, rest, hrest, rfl⟩
      rw [string?_eq_some_iff.1 hs, ih.1 hrest, List.map_cons]
    · intro h
      obtain ⟨s, rest, rfl, hs, hrest⟩ := List.map_eq_cons_iff.1 h.symm
      exact ⟨s, string?_eq_some_iff.2 hs.symm, rest, ih.2 hrest.symm, rfl⟩

theorem strings?_eq_some_iff {v : Value} {a : List String} :
    v.strings? = some a ↔ v = .array (a.map .string) := by
  constructor
  · intro h
    cases v with
    | array items => exact congrArg Value.array (mapM_string?_eq_some_iff.1 h)
    | _ => cases h
  · rintro rfl
    exact mapM_string?_eq_some_iff.2 rfl

/-- Where the count of attempts stands. -/
theorem attempts?_eq_some_iff {v : Value} {n : UInt32} :
    v.attempts? = some n ↔ v = .table [("attempts", .integer n.toNat)] ∨
      ∃ more, v = .array (.integer n.toNat :: more) := by
  constructor
  · intro h
    unfold Value.attempts? at h
    split at h
    · obtain ⟨rfl, hword⟩ := Option.ite_none_right_eq_some.1 h
      rw [word32?_eq_some_iff.1 hword]
      exact .inl rfl
    · rw [word32?_eq_some_iff.1 h]
      exact .inr ⟨_, rfl⟩
    · cases h
  · rintro (rfl | ⟨more, rfl⟩)
    · exact attempts?_retry n
    · exact word32?_eq_some_iff.2 rfl

/-- A policy without data may be given by its name alone. -/
theorem PolicyForm.of_name {name : String} {p : Policy}
    (h : Value.policy? (.string name) = some p) : PolicyForm (.string name) p := by
  rw [Value.policy?] at h
  by_cases habort : name = "abort"
  · rw [if_pos habort] at h
    cases h
    exact habort ▸ .abort
  · rw [if_neg habort] at h
    obtain ⟨rfl, heq⟩ := Option.ite_none_right_eq_some.1 h
    cases heq
    exact .skip

/-- A table has the name for its only key, and behind it the data or what stands for none. -/
theorem PolicyForm.of_table {name : String} {data : Value} {p : Policy}
    (h : Value.policy? (.table [(name, data)]) = some p) :
    PolicyForm (.table [(name, data)]) p := by
  rw [Value.policy?] at h
  by_cases habort : name = "abort"
  · rw [if_pos habort] at h
    obtain ⟨hvoid, heq⟩ := Option.ite_none_right_eq_some.1 h
    cases heq
    exact habort ▸ .abortTable hvoid
  rw [if_neg habort] at h
  by_cases hskip : name = "skip"
  · rw [if_pos hskip] at h
    obtain ⟨hvoid, heq⟩ := Option.ite_none_right_eq_some.1 h
    cases heq
    exact hskip ▸ .skipTable hvoid
  rw [if_neg hskip] at h
  -- the name that is left has data
  obtain ⟨rfl, hretry⟩ := Option.ite_none_right_eq_some.1 h
  obtain ⟨n, hn, rfl⟩ := Option.map_eq_some_iff.1 hretry
  obtain rfl | ⟨more, rfl⟩ := attempts?_eq_some_iff.1 hn
  · exact .retry n
  · exact .retryArray n more

theorem PolicyForm.policy?_eq {v : Value} {p : Policy} (h : PolicyForm v p) :
    v.policy? = some p := by
  cases h with
  | abort => rfl
  | skip => rfl
  | abortTable hvoid => exact if_pos hvoid
  | skipTable hvoid => exact if_pos hvoid
  | retry n => exact policy?_policyValue (.retry n)
  | retryArray n more =>
    have hcount : (Value.array (.integer n.toNat :: more)).attempts? = some n :=
      attempts?_eq_some_iff.2 (.inr ⟨more, rfl⟩)
    rw [Value.policy?, if_neg (by decide), if_neg (by decide), if_pos rfl, hcount,
      Option.map_some]

theorem policy?_eq_some_iff {v : Value} {p : Policy} : v.policy? = some p ↔ PolicyForm v p := by
  refine ⟨fun h => ?_, PolicyForm.policy?_eq⟩
  have hread := h
  unfold Value.policy? at hread
  split at hread
  · exact .of_name h
  · exact .of_table h
  · cases hread

/-- A field takes the values that fit it, and no others. -/
theorem FieldKind.decode?_eq_some_iff {k : FieldKind} {v : Value} {a : k.Carrier} :
    k.decode? v = some a ↔ k.Fits v a := by
  cases k with
  | text => exact string?_eq_some_iff
  | texts => exact strings?_eq_some_iff
  | span =>
    constructor
    · intro h
      obtain ⟨text, htext, hread⟩ := Option.bind_eq_some_iff.1 h
      exact ⟨text, string?_eq_some_iff.1 htext, hread⟩
    · rintro ⟨text, rfl, hread⟩
      exact hread
  | word => exact word8?_eq_some_iff
  | optionalText =>
    constructor
    · intro h
      obtain ⟨name, hname, heq⟩ := Option.map_eq_some_iff.1 h
      exact ⟨name, string?_eq_some_iff.1 hname, heq.symm⟩
    · rintro ⟨name, rfl, rfl⟩
      rfl
  | policy => exact policy?_eq_some_iff

/-! ## Values that fit no field -/

/-- The value stands for nothing that the field can hold. -/
def Field.Misfit (f : Field) (v : Value) : Prop := ∀ a, ¬ f.kind.Fits v a

theorem misfit_level {n : Int} (h : n < 0 ∨ 255 < n) : Field.level.Misfit (.integer n) := by
  intro a ha
  have heq : n = a.toNat := Value.integer.inj ha
  have hlt := a.toNat_lt
  omega

theorem misfit_attempts {n : Int} (h : n < 0 ∨ 4294967295 < n) :
    Field.policy.Misfit (.table [("retry", .table [("attempts", .integer n)])]) := by
  intro p hp
  have hread := policy?_eq_some_iff.2 hp
  rw [Value.policy?, if_neg (by decide), if_neg (by decide), if_pos rfl] at hread
  obtain ⟨a, ha, -⟩ := Option.map_eq_some_iff.1 hread
  obtain heq | ⟨more, heq⟩ := attempts?_eq_some_iff.1 ha
  · have hentries := Value.table.inj heq
    have hvalue : Value.integer n = .integer a.toNat := by simpa using hentries
    have hn : n = a.toNat := Value.integer.inj hvalue
    have hlt := a.toNat_lt
    omega
  · cases heq

theorem misfit_timeBudget {text : String} (h : Span.read? text.toList = none) :
    Field.timeBudget.Misfit (.string text) := by
  rintro a ⟨text', heq, hread⟩
  obtain rfl := Value.string.inj heq
  rw [h] at hread
  cases hread

end CompilerFuzz.Settings
