/-
  CompilerFuzz.Proofs.CommandLine.Resolution

  Which campaign a command line asks for. One source of settings is chosen
  (`Source.Chosen`), and what becomes of it is told by its file (`Source.Gives`); another
  source is never tried. The campaign takes every parameter from the options or else from
  the settings (`FuzzOptions.Effective`). A single pass of either goes before a level of
  either, and a mode is judged when both have had their say (`Resolves`).
-/
import Mathlib.Logic.ExistsUnique
import CompilerFuzz.CommandLine.Perform

namespace CompilerFuzz.CommandLine

open CompilerFuzz.Campaign CompilerFuzz.Files CompilerFuzz.Text

/-! ## Sources -/

namespace Source

/-- The file that a source is read from. -/
def file? : Source → Option Path
  | .argument path => some path
  | .environment path => some path
  | .workingDirectory => some localConfig
  | .builtIn => none

/-- The first source that is there. The file named on the command line is taken whether it
    exists or not, and the value of the variable counts only if it is a text. -/
inductive Chosen (argument : Option Path) (raw : Option Bytes) (files : Tree) : Source → Prop
  | argument {path} (h : argument = some path) : Chosen argument raw files (.argument path)
  | environment {path} (hargument : argument = none) (h : variableText? raw = some path)
      (hthere : files.exists? path = true) : Chosen argument raw files (.environment path)
  | workingDirectory (hargument : argument = none)
      (hvariable : ∀ path, variableText? raw = some path → files.exists? path = false)
      (hthere : files.exists? localConfig = true) : Chosen argument raw files .workingDirectory
  | builtIn (hargument : argument = none)
      (hvariable : ∀ path, variableText? raw = some path → files.exists? path = false)
      (hlocal : files.exists? localConfig = false) : Chosen argument raw files .builtIn

/-- What becomes of a source: only the built-in settings need no file, and a file must be
    readable text, a TOML document, and describe settings. -/
inductive Gives (files : Tree) : Source → Except SettingsError Settings → Prop
  | builtIn : Gives files .builtIn (.ok .default)
  | unreadable {source path cause} (hfile : file? source = some path)
      (h : files.readText path = .error cause) :
      Gives files source (.error (.unreadable path cause))
  | malformed {source path text} (hfile : file? source = some path)
      (htext : files.readText path = .ok text) (h : Toml.read? text.toList = none) :
      Gives files source (.error (.unparsable .malformed))
  | unfitting {source path text table} (hfile : file? source = some path)
      (htext : files.readText path = .ok text) (htable : Toml.read? text.toList = some table)
      (h : Settings.ofTable? table = none) : Gives files source (.error (.unparsable .unfitting))
  | settings {source path text table s} (hfile : file? source = some path)
      (htext : files.readText path = .ok text) (htable : Toml.read? text.toList = some table)
      (h : Settings.ofTable? table = some s) : Gives files source (.ok s)

section Laws

variable {argument : Option Path} {raw : Option Bytes} {files : Tree} {source : Source}
  {r : Except SettingsError Settings}

theorem chosen_fallback (hargument : argument = none)
    (hvariable : ∀ path, variableText? raw = some path → files.exists? path = false) :
    Chosen argument raw files (fallback files) := by
  unfold fallback
  split
  · next hthere => exact .workingDirectory hargument hvariable hthere
  · next hlocal => exact .builtIn hargument hvariable (Bool.eq_false_iff.2 hlocal)

theorem chosen_choose : Chosen argument raw files (choose argument (variableText? raw) files) := by
  unfold choose
  split
  · exact .argument rfl
  · next path hvalue =>
    split
    · next hthere => exact .environment rfl hvalue hthere
    · next hgone =>
      -- a value that names nothing is passed over like none
      apply chosen_fallback rfl
      intro path' hvalue'
      obtain rfl := Option.some.inj (hvalue.symm.trans hvalue')
      exact Bool.eq_false_iff.2 hgone
  · next hvalue =>
    apply chosen_fallback rfl
    intro path hvalue'
    rw [hvalue] at hvalue'
    cases hvalue'

/-- A variable that is unset, or names nothing that is there, is passed over. -/
theorem choose_eq_fallback (hargument : argument = none)
    (hvariable : ∀ path, variableText? raw = some path → files.exists? path = false) :
    choose argument (variableText? raw) files = fallback files := by
  rw [hargument]
  cases hvalue : variableText? raw with
  | none => rfl
  | some path => exact if_neg (Bool.eq_false_iff.1 (hvariable path hvalue))

/-- The source that is used is the one that is chosen. -/
theorem choose_eq_iff :
    choose argument (variableText? raw) files = source ↔ Chosen argument raw files source := by
  constructor
  · rintro rfl
    exact chosen_choose
  · intro h
    cases h with
    | argument h => rw [h, choose]
    | environment hargument h hthere =>
      rw [hargument, h]
      exact if_pos hthere
    | workingDirectory hargument hvariable hthere =>
      exact (choose_eq_fallback hargument hvariable).trans (if_pos hthere)
    | builtIn hargument hvariable hlocal =>
      exact (choose_eq_fallback hargument hvariable).trans (if_neg (Bool.eq_false_iff.1 hlocal))

theorem load_of_file? {path : Path} (h : file? source = some path) :
    source.load files = Settings.ofFile files path := by
  cases source with
  | argument p => rw [load, Option.some.inj h]
  | environment p => rw [load, Option.some.inj h]
  | workingDirectory => rw [load, Option.some.inj h]
  | builtIn => cases h

theorem gives_ofFile {path : Path} (h : file? source = some path) :
    Gives files source (Settings.ofFile files path) := by
  unfold Settings.ofFile
  split
  · next hcause => exact .unreadable h hcause
  · next htext =>
    unfold Settings.ofText
    split
    · next hread => exact .malformed h htext hread
    · next htable =>
      split
      · next hsettings => exact .unfitting h htext htable hsettings
      · next hsettings => exact .settings h htext htable hsettings

theorem gives_load : Gives files source (source.load files) := by
  cases hfile : file? source with
  | some path =>
    rw [load_of_file? hfile]
    exact gives_ofFile hfile
  | none =>
    cases source with
    | builtIn => exact .builtIn
    | argument p => cases hfile
    | environment p => cases hfile
    | workingDirectory => cases hfile

/-- What is loaded from a source is what its file gives. -/
theorem load_eq_iff : source.load files = r ↔ Gives files source r := by
  constructor
  · rintro rfl
    exact gives_load
  · intro h
    cases h with
    | builtIn => rfl
    | unreadable hfile h =>
      rw [load_of_file? hfile, Settings.ofFile, h]
    | malformed hfile htext h =>
      rw [load_of_file? hfile, Settings.ofFile, htext]
      simp only [Settings.ofText, h]
    | unfitting hfile htext htable h =>
      rw [load_of_file? hfile, Settings.ofFile, htext]
      simp only [Settings.ofText, htable, h]
    | settings hfile htext htable h =>
      rw [load_of_file? hfile, Settings.ofFile, htext]
      simp only [Settings.ofText, htable, h]

end Laws

end Source

/-! ## Parameters -/

namespace FuzzOptions

variable {o : FuzzOptions} {s : Settings}

/-- The time budget that the options and the settings ask for together. -/
inductive Lasts (o : FuzzOptions) (s : Settings) : Span → Prop
  | given {seconds} (h : o.seconds = some seconds) : Lasts o s (.ofSecs seconds.toNat)
  | set (h : o.seconds = none) : Lasts o s s.campaign.timeBudget

/-- The mode that the options and the settings ask for together. -/
inductive Wants (o : FuzzOptions) (s : Settings) : Mode → Prop
  | givenPass {name} (h : o.pass = some name) : Wants o s (.singlePass name)
  | setPass {name} (hpass : o.pass = none) (h : s.campaign.singlePass = some name) :
      Wants o s (.singlePass name)
  | givenLevel {level} (hpass : o.pass = none) (hset : s.campaign.singlePass = none)
      (h : o.level = some level) : Wants o s (.pipeline level)
  | setLevel (hpass : o.pass = none) (hset : s.campaign.singlePass = none) (h : o.level = none) :
      Wants o s (.pipeline s.campaign.level)

/-- The policy that the options and the settings ask for together. Attempts are looked at only
    if the policy of the options is to retry. -/
inductive Handles (o : FuzzOptions) (s : Settings) : Policy → Prop
  | abort (h : o.policy = some .abort) : Handles o s .abort
  | skip (h : o.policy = some .skip) : Handles o s .skip
  | retry {n} (h : o.policy = some .retry) (hn : o.retries = some n) : Handles o s (.retry n)
  | retryOnce (h : o.policy = some .retry) (hn : o.retries = none) : Handles o s (.retry 1)
  | set (h : o.policy = none) : Handles o s s.campaign.policy

/-- A campaign with the parameters of the options where these are given, and with those of the
    settings elsewhere. -/
structure Effective (o : FuzzOptions) (s : Settings) (job : Job) : Prop where
  budget : o.Lasts s job.plan.budget
  mode : o.Wants s job.plan.mode
  policy : o.Handles s job.plan.policy
  source : job.artifacts.source = Path.join (o.dir.getD s.workspace.dir) s.workspace.sourceName
  ir : job.artifacts.ir = Path.join (o.dir.getD s.workspace.dir) s.workspace.irName
  binary : job.artifacts.binary = Path.join (o.dir.getD s.workspace.dir) s.workspace.binaryName
  toolchain : job.toolchain = s.toolchain

theorem timeBudget_override_eq_iff {budget : Span} :
    (o.override s).campaign.timeBudget = budget ↔ o.Lasts s budget := by
  constructor
  · rintro rfl
    unfold override budget?
    dsimp only
    cases hseconds : o.seconds with
    | some seconds => exact .given hseconds
    | none => exact .set hseconds
  · intro h
    unfold override budget?
    dsimp only
    cases h with
    | given h => rw [h]; rfl
    | set h => rw [h]; rfl

theorem mode_override_eq_iff {m : Mode} : (o.override s).campaign.mode = m ↔ o.Wants s m := by
  constructor
  · rintro rfl
    unfold CampaignSettings.mode override
    dsimp only
    -- both passes are looked at before either level
    cases hpass : o.pass with
    | some name => exact .givenPass hpass
    | none =>
      cases hset : s.campaign.singlePass with
      | some name => exact .setPass hpass hset
      | none =>
        cases hlevel : o.level with
        | some level => exact .givenLevel hpass hset hlevel
        | none => exact .setLevel hpass hset hlevel
  · intro h
    unfold CampaignSettings.mode override
    dsimp only
    cases h with
    | givenPass h => rw [h, Option.some_or]
    | setPass hpass h => rw [hpass, h, Option.none_or]
    | givenLevel hpass hset h => rw [hpass, hset, h, Option.none_or, Option.getD_some]
    | setLevel hpass hset h => rw [hpass, hset, h, Option.none_or, Option.getD_none]

theorem policy_override_eq_iff {p : Policy} :
    (o.override s).campaign.policy = p ↔ o.Handles s p := by
  constructor
  · rintro rfl
    unfold override policy?
    dsimp only
    -- without a policy the settings decide, and a number of attempts says nothing alone
    cases hpolicy : o.policy with
    | none => exact .set hpolicy
    | some name =>
      cases name with
      | abort => exact .abort hpolicy
      | skip => exact .skip hpolicy
      | retry =>
        cases hn : o.retries with
        | none => exact .retryOnce hpolicy hn
        | some n => exact .retry hpolicy hn
  · intro h
    unfold override policy?
    dsimp only
    cases h with
    | abort h => rw [h]; rfl
    | skip h => rw [h]; rfl
    | retry h hn => rw [h, hn]; rfl
    | retryOnce h hn => rw [h, hn]; rfl
    | set h => rw [h]; rfl

/-- Attempts without a policy to retry among the options change nothing. -/
theorem override_retries (h : o.policy ≠ some .retry) (n : Option UInt32) :
    ({ o with retries := n } : FuzzOptions).override s = o.override s := by
  have hpolicy : ({ o with retries := n } : FuzzOptions).policy? = o.policy? := by
    unfold policy?
    dsimp only
    cases hname : o.policy with
    | none => rfl
    | some name =>
      cases name with
      | abort => rfl
      | skip => rfl
      | retry => exact absurd hname h
  unfold override
  rw [hpolicy]
  rfl

/-- What is left after the options is a job with the parameters that are asked for. -/
theorem effective_iff {job : Job} :
    o.Effective s job ↔ (o.override s).campaign.plan = .ok job.plan ∧
      job.artifacts = (o.override s).workspace.artifacts ∧ job.toolchain = s.toolchain := by
  unfold CampaignSettings.plan
  rw [Plan.make_eq_ok_iff]
  constructor
  · rintro ⟨hbudget, hmode, hpolicy, hsource, hir, hbinary, htoolchain⟩
    refine ⟨⟨?_, ?_, ?_⟩, ?_, htoolchain⟩
    · exact (timeBudget_override_eq_iff.2 hbudget).symm
    · exact (mode_override_eq_iff.2 hmode).symm
    · exact (policy_override_eq_iff.2 hpolicy).symm
    · -- three paths make the artifacts
      have hparts : job.artifacts =
          ⟨job.artifacts.source, job.artifacts.ir, job.artifacts.binary⟩ := rfl
      rw [hparts, hsource, hir, hbinary]
      rfl
  · rintro ⟨⟨hbudget, hmode, hpolicy⟩, hartifacts, htoolchain⟩
    have hartifact (part : Artifacts → Path) :
        part job.artifacts = part (o.override s).workspace.artifacts := by
      rw [hartifacts]
    exact {
      budget := timeBudget_override_eq_iff.1 hbudget.symm
      mode := mode_override_eq_iff.1 hmode.symm
      policy := policy_override_eq_iff.1 hpolicy.symm
      source := hartifact Artifacts.source
      ir := hartifact Artifacts.ir
      binary := hartifact Artifacts.binary
      toolchain := htoolchain }

end FuzzOptions

/-! ## The campaign of a command line -/

/-- What the options of a campaign come to: a fault, or the job that is run. -/
inductive Resolves (config : Option Path) (raw : Option Bytes) (files : Tree) (o : FuzzOptions) :
    Except Fault Job → Prop
  /-- The chosen source gives no settings. -/
  | unloadable {source e} (hsource : Source.Chosen config raw files source)
      (h : source.Gives files (.error e)) : Resolves config raw files o
        (.error ⟨"Failed to load config from " ++ source.print, e.causes⟩)
  /-- The mode that is wanted in the end is refused. -/
  | refused {source s m e} (hsource : Source.Chosen config raw files source)
      (hs : source.Gives files (.ok s)) (hmode : o.Wants s m) (h : m.Refused e) :
      Resolves config raw files o (.error ⟨"Invalid campaign configuration",
        ["invalid configuration: " ++ e.message]⟩)
  | campaign {source s job} (hsource : Source.Chosen config raw files source)
      (hs : source.Gives files (.ok s)) (h : o.Effective s job) :
      Resolves config raw files o (.ok job)

section Resolution

variable {config : Option Path} {raw : Option Bytes} {files : Tree} {o : FuzzOptions}
  {r : Except Fault Job}

theorem resolves_effectiveJob :
    Resolves config raw files o (effectiveJob files (variableText? raw) config o) := by
  have hsource : Source.Chosen config raw files
      (Source.choose config (variableText? raw) files) := Source.chosen_choose
  unfold effectiveJob
  dsimp only
  split
  · next hload => exact .unloadable hsource (Source.load_eq_iff.1 hload)
  · next s hload =>
    have hs := Source.load_eq_iff.1 hload
    -- the plan is made of what the options have left
    split
    · next hplan =>
      have hrefused := Plan.make_eq_error_iff.1 hplan
      exact .refused hsource hs (FuzzOptions.mode_override_eq_iff.1 rfl) hrefused
    · next plan hplan =>
      have heffective : o.Effective s ⟨s.toolchain, (o.override s).workspace.artifacts, plan⟩ :=
        FuzzOptions.effective_iff.2 ⟨hplan, rfl, rfl⟩
      exact .campaign hsource hs heffective

/-- What is to be run is what the options come to. -/
theorem effectiveJob_eq_iff :
    effectiveJob files (variableText? raw) config o = r ↔ Resolves config raw files o r := by
  constructor
  · rintro rfl
    exact resolves_effectiveJob
  · intro h
    -- each of the three ends is reached through the stages before it, which succeed
    unfold effectiveJob
    cases h with
    | unloadable hsource h =>
      rw [Source.choose_eq_iff.2 hsource]
      dsimp only
      rw [Source.load_eq_iff.2 h]
    | @refused source s m e hsource hs hmode h =>
      have hplan : (o.override s).campaign.plan = .error e := by
        rw [← FuzzOptions.mode_override_eq_iff.2 hmode] at h
        exact Plan.make_eq_error_iff.2 h
      rw [Source.choose_eq_iff.2 hsource]
      dsimp only
      rw [Source.load_eq_iff.2 hs]
      dsimp only
      rw [hplan]
      rfl
    | @campaign source s job hsource hs h =>
      obtain ⟨hplan, hartifacts, htoolchain⟩ := FuzzOptions.effective_iff.1 h
      have hkept : (o.override s).toolchain = job.toolchain := htoolchain.symm
      rw [Source.choose_eq_iff.2 hsource]
      dsimp only
      rw [Source.load_eq_iff.2 hs]
      dsimp only
      rw [hplan]
      dsimp only
      rw [← hartifacts, hkept]

/-- Attempts without a policy to retry among the options change nothing. -/
theorem resolves_retries_iff (h : o.policy ≠ some .retry) (n : Option UInt32) :
    Resolves config raw files { o with retries := n } r ↔ Resolves config raw files o r := by
  rw [← effectiveJob_eq_iff, ← effectiveJob_eq_iff]
  unfold effectiveJob
  simp only [FuzzOptions.override_retries h]

end Resolution

/-- A fault ends the program at once, and a job is run. -/
theorem perform_eq_iff_resolves {env : Environment} {fuel : Span → Nat} {config : Option Path}
    {raw : Option Bytes} {files : Tree} {logLevel : Option String} {o : FuzzOptions}
    {t : Option Transcript} :
    perform env fuel ⟨variableText? raw, files⟩ ⟨config, logLevel, .fuzz o⟩ = t ↔
      (∃ f, Resolves config raw files o (.error f) ∧ t = some (.failure f "" ⟨files, []⟩)) ∨
      ∃ job, Resolves config raw files o (.ok job) ∧
        t = runCampaign env (fuel job.plan.budget) o.quiet job files := by
  unfold perform
  simp only [← effectiveJob_eq_iff]
  cases effectiveJob files (variableText? raw) config o with
  | error f =>
    constructor
    · rintro rfl
      exact .inl ⟨f, rfl, rfl⟩
    · rintro (⟨g, hg, rfl⟩ | ⟨job, hjob, -⟩)
      · rw [Except.error.inj hg]
      · cases hjob
  | ok job =>
    constructor
    · rintro rfl
      exact .inr ⟨job, rfl, rfl⟩
    · rintro (⟨f, hf, -⟩ | ⟨job', hjob, rfl⟩)
      · cases hf
      · rw [Except.ok.inj hjob]

/-- Which campaign runs. One source of settings is chosen, whatever the arguments, the variable
    and the files are, and together they come to one thing: a fault, if the chosen source gives
    no settings or the mode that is wanted in the end is refused, or else the job with the
    parameters of the options and, where these are not given, of the chosen source. Then this
    fault ends the program before anything is done, or a campaign with this job is run. Attempts
    have no effect unless the policy of the options is to retry. -/
theorem perform_fuzz (env : Environment) (fuel : Span → Nat) (config : Option Path)
    (raw : Option Bytes) (files : Tree) (logLevel : Option String) (o : FuzzOptions) :
    (∃! source, Source.Chosen config raw files source) ∧
    (∃! r, Resolves config raw files o r) ∧
    (∀ t, perform env fuel ⟨variableText? raw, files⟩ ⟨config, logLevel, .fuzz o⟩ = t ↔
      (∃ f, Resolves config raw files o (.error f) ∧ t = some (.failure f "" ⟨files, []⟩)) ∨
      ∃ job, Resolves config raw files o (.ok job) ∧
        t = runCampaign env (fuel job.plan.budget) o.quiet job files) ∧
    ∀ n r, o.policy = some .retry ∨
      (Resolves config raw files { o with retries := n } r ↔ Resolves config raw files o r) := by
  refine ⟨?_, ?_, fun t => perform_eq_iff_resolves, fun n r => ?_⟩
  · exact ⟨_, Source.chosen_choose, fun source h => (Source.choose_eq_iff.2 h).symm⟩
  · exact ⟨_, resolves_effectiveJob, fun r h => (effectiveJob_eq_iff.2 h).symm⟩
  · by_cases h : o.policy = some .retry
    · exact .inl h
    · exact .inr (resolves_retries_iff h n)

/-- The variable is no text, so the settings come from the working directory. Their single pass
    goes before the level of the options. -/
example :
    let files : Tree :=
      ⟨[(["tmp", "/", "optfuzz.toml"], .file (bytesOf "[campaign]\nsingle_pass = 'gvn'"))]⟩
    let o : FuzzOptions := { FuzzOptions.blank with level := some 1, retries := some 5 }
    (effectiveJob files (variableText? (some [0xFF])) none o).toOption.map
        (fun job => (job.plan.mode, job.plan.policy)) = some (.singlePass "gvn", .abort) := by
  decide +kernel

end CompilerFuzz.CommandLine
