/-
  CompilerFuzz.Proofs.Campaign.CommandLines

  What reaches the tools. A plan is had for the modes that are `Allowed` and for no others, and
  it keeps what it is made of. The calls of a job on such a plan fit together (`Job.Fits`): the
  compiler reads what the generator writes, the optimizer reads what the compiler emits, the
  level is one that the compiler knows, and the list of passes can be taken apart again. The
  plan forbids commas in the name of the pass only; the passes before it may be any text, so
  the place to cut is the last comma (`LastComma.unique`). No other calls are made, whatever is
  done to a campaign (`Job.Makes.mem_calls`).
-/
import CompilerFuzz.Proofs.Campaign.Kept
import CompilerFuzz.Proofs.Campaign.Lifecycle

namespace CompilerFuzz.Campaign

open CompilerFuzz.Files CompilerFuzz.Text

/-! ## Modes that a plan is had for -/

/-- A level that the compiler knows, or a name that is not all white space and has no comma. -/
inductive Mode.Allowed : Mode → Prop
  | level {level : UInt8} (h : level.toNat ≤ 3) : Allowed (.pipeline level)
  | pass {name : String} (hname : ∃ c ∈ name.toList, isBlank c = false)
      (hcomma : ',' ∉ name.toList) : Allowed (.singlePass name)

/-- A mode is allowed if there is nothing to refuse it for. -/
theorem Mode.check_eq_ok_iff_allowed {m : Mode} : m.check = .ok () ↔ m.Allowed := by
  rw [check_eq_ok_iff]
  -- each condition of an allowed mode is the contrary of one reason to refuse it
  constructor
  · intro h
    cases m with
    | pipeline level => exact .level (Nat.le_of_not_lt fun hlevel => h _ (.levelOutOfRange hlevel))
    | singlePass name =>
      have hname : ∃ c ∈ name.toList, isBlank c = false :=
        trim_ne_nil_iff.1 fun hblank => h _ (.passNameEmpty (trim_eq_nil_iff.1 hblank))
      exact .pass hname fun hcomma => h _ (.severalPasses hname hcomma)
  · intro h e he
    cases h with
    | level h =>
      cases he with
      | levelOutOfRange hlevel => exact Nat.not_lt_of_le h hlevel
    | pass hname hcomma =>
      cases he with
      | passNameEmpty hblank =>
        obtain ⟨c, hc, hc'⟩ := hname
        exact Bool.false_ne_true (hc'.symm.trans (hblank c hc))
      | severalPasses _ h => exact hcomma h

theorem Plan.allowed (plan : Plan) : plan.mode.Allowed :=
  Mode.check_eq_ok_iff_allowed.1 plan.valid

theorem Plan.exists_make_iff {budget : Span} {mode : Mode} {policy : Policy} :
    (∃ plan, make budget mode policy = .ok plan) ↔ mode.Allowed := by
  constructor
  · rintro ⟨plan, hplan⟩
    obtain ⟨-, rfl, -⟩ := make_eq_ok_iff.1 hplan
    exact plan.allowed
  · intro h
    exact ⟨⟨budget, mode, policy, Mode.check_eq_ok_iff_allowed.2 h⟩,
      make_eq_ok_iff.2 ⟨rfl, rfl, rfl⟩⟩

/-! ## Arguments -/

/-- How the compiler is told each level. -/
def levelFlags : List String := ["-O0", "-O1", "-O2", "-O3"]

theorem levelFlags_getElem? {n : Nat} (h : n ≤ 3) :
    levelFlags[n]? = some ("-O" ++ numeralText n) := by
  have hflags : ∀ n ≤ 3, levelFlags[n]? = some ("-O" ++ numeralText n) := by decide +kernel
  exact hflags n h

/-- The last output that is named counts, whatever the arguments before it are. -/
theorem outputArgument?_append (front : List String) (path : Path) :
    outputArgument? (front ++ ["-o", path]) = some path := by
  induction front with
  | nil => rfl
  | cons flag front ih =>
    have hne : front ++ ["-o", path] ≠ [] :=
      List.append_ne_nil_of_right_ne_nil front (List.cons_ne_nil _ _)
    obtain ⟨next, rest, hrest⟩ := List.exists_cons_of_ne_nil hne
    rw [List.cons_append, hrest, outputArgument?, ← hrest, ih]

/-- A text is cut at its last comma. -/
structure LastComma (text before after : String) : Prop where
  text_eq : text = before ++ "," ++ after
  comma_notMem : ',' ∉ after.toList

namespace LastComma

variable {text before before' after after' : String}

theorem toList_eq (h : LastComma text before after) :
    text.toList = before.toList ++ ',' :: after.toList := by
  rw [h.text_eq, String.toList_append, String.toList_append, List.append_assoc]
  rfl

/-- What follows a comma at which a text is cut holds what follows the last one. -/
theorem suffix (h : LastComma text before after) (h' : LastComma text before' after') :
    after.toList <:+ after'.toList := by
  have hafter : after.toList <:+ text.toList :=
    h.toList_eq ▸ (List.suffix_cons _ _).trans (List.suffix_append _ _)
  have hafter' : ',' :: after'.toList <:+ text.toList := h'.toList_eq ▸ List.suffix_append _ _
  obtain hlong | hshort := List.suffix_or_suffix_of_suffix hafter' hafter
  · exact absurd (hlong.mem List.mem_cons_self) h.comma_notMem
  · obtain hsame | hshort := List.suffix_cons_iff.1 hshort
    · exact absurd (hsame ▸ List.mem_cons_self) h.comma_notMem
    · exact hshort

/-- There is one last comma at most. -/
theorem unique (h : LastComma text before after) (h' : LastComma text before' after') :
    before = before' ∧ after = after' := by
  have hafter : after.toList = after'.toList :=
    (h.suffix h').eq_of_length_le (h'.suffix h).length_le
  have hlists := h.toList_eq.symm.trans h'.toList_eq
  rw [hafter] at hlists
  exact ⟨String.toList_inj.1 (List.append_cancel_right hlists), String.toList_inj.1 hafter⟩

end LastComma

/-! ## Calls that fit together -/

/-- The call is what its step of an iteration needs. -/
inductive Job.Fits (job : Job) (call : Invocation) : Prop
  /-- What the generator prints goes to the source file. -/
  | generate (hstep : call.step = .generate) (houtput : call.output = .file job.artifacts.source)
  /-- The compiler reads the source file; the level stands right before the binary. -/
  | compile {level front flag} (hstep : call.step = .compile)
      (hsource : call.args.head? = some job.artifacts.source)
      (hmode : job.plan.mode = .pipeline level) (hflag : levelFlags[level.toNat]? = some flag)
      (hargs : call.args = front ++ [flag, "-o", job.artifacts.binary])
  /-- The compiler reads the source file; the last output that is named is the intermediate
      code. -/
  | emitIr {front} (hstep : call.step = .emitIr)
      (hsource : call.args.head? = some job.artifacts.source)
      (hargs : call.args = front ++ ["-o", job.artifacts.ir])
      (houtput : outputArgument? call.args = some job.artifacts.ir)
  /-- The optimizer reads the intermediate code; the pass under test is the last of its passes,
      and the passes before it normalize. -/
  | optimize {name list} (hstep : call.step = .optimize)
      (hinput : call.args[2]? = some job.artifacts.ir) (hmode : job.plan.mode = .singlePass name)
      (hlist : call.args[1]? = some ("-passes=" ++ list))
      (hcut : LastComma list job.toolchain.normalizationPass name)

namespace Job

variable {job : Job}

theorem fits_compile {level : UInt8} (hmode : job.plan.mode = .pipeline level) :
    job.Fits (job.toolchain.compile job.artifacts level) := by
  have hallowed : Mode.Allowed (.pipeline level) := hmode ▸ job.plan.allowed
  cases hallowed with
  | level hlevel => exact .compile rfl rfl hmode (levelFlags_getElem? hlevel) rfl

theorem fits_emitIr (job : Job) : job.Fits (job.toolchain.emitIr job.artifacts) := by
  have hargs : (job.toolchain.emitIr job.artifacts).args =
      (job.toolchain.compilerArgs job.artifacts ++ ["-S", "-emit-llvm"]) ++
        ["-o", job.artifacts.ir] :=
    (List.append_assoc (job.toolchain.compilerArgs job.artifacts) ["-S", "-emit-llvm"] _).symm
  refine .emitIr rfl rfl hargs ?_
  rw [hargs]
  exact outputArgument?_append _ _

theorem fits_optimize {name : String} (hmode : job.plan.mode = .singlePass name) :
    job.Fits (job.toolchain.optimize job.artifacts name) := by
  have hallowed : Mode.Allowed (.singlePass name) := hmode ▸ job.plan.allowed
  -- the argument is put together from four pieces, of which the last three are the list
  have hlist : ∀ flag before comma after : String,
      flag ++ before ++ comma ++ after = flag ++ (before ++ comma ++ after) := by
    intro flag before comma after
    simp only [String.append_assoc]
  cases hallowed with
  | pass _ hcomma =>
    exact .optimize rfl rfl hmode (congrArg some (hlist _ _ _ _)) ⟨rfl, hcomma⟩

/-- The calls of a job fit together. -/
theorem fits_of_mem_calls {call : Invocation} (h : call ∈ job.calls) : job.Fits call := by
  obtain rfl | h := List.mem_cons.1 h
  · exact .generate rfl rfl
  · unfold exercises at h
    cases hmode : job.plan.mode with
    | pipeline level =>
      rw [hmode] at h
      obtain rfl := List.mem_singleton.1 h
      exact fits_compile hmode
    | singlePass name =>
      rw [hmode] at h
      obtain rfl | h := List.mem_cons.1 h
      · exact job.fits_emitIr
      · obtain rfl := List.mem_singleton.1 h
        exact fits_optimize hmode

theorem Fits.passes {call : Invocation} (h : job.Fits call) (hs : call.step = .optimize) :
    ∃ name list, job.plan.mode = .singlePass name ∧ call.args[1]? = some ("-passes=" ++ list) ∧
      LastComma list job.toolchain.normalizationPass name := by
  cases h with
  | generate hstep => cases hstep.symm.trans hs
  | compile hstep => cases hstep.symm.trans hs
  | emitIr hstep => cases hstep.symm.trans hs
  | @optimize name list _ _ hmode hlist hcut => exact ⟨name, list, hmode, hlist, hcut⟩

/-- The list of passes tells what was normalized with, and which pass was asked for. -/
theorem Fits.passes_injective {job' : Job} {call call' : Invocation} (h : job.Fits call)
    (h' : job'.Fits call') (hs : call.step = .optimize) (hs' : call'.step = .optimize)
    (hsame : call.args[1]? = call'.args[1]?) :
    job.toolchain.normalizationPass = job'.toolchain.normalizationPass ∧
      job.plan.mode = job'.plan.mode := by
  obtain ⟨name, list, hmode, hlist, hcut⟩ := h.passes hs
  obtain ⟨name', list', hmode', hlist', hcut'⟩ := h'.passes hs'
  rw [hlist, hlist'] at hsame
  obtain rfl : list = list' := (String.append_right_inj _).1 (Option.some.inj hsame)
  obtain ⟨hbefore, rfl⟩ := hcut.unique hcut'
  exact ⟨hbefore, hmode.trans hmode'.symm⟩

end Job

/-! ## Whole runs -/

/-- The call was made at some time: before a pause of a run, or while operations were performed
    on a campaign. -/
inductive Job.Makes (job : Job) : Invocation → Prop
  | paused {env files p a} (hp : Reached env job files p) (ha : a ∈ p.world.history.attempts) :
      Makes job a.call
  | performed {env files log s a} (hs : Session.Performs env job files log s)
      (ha : a ∈ s.world.history.attempts) : Makes job a.call

theorem kept_mem_calls (env : Environment) (job : Job) :
    Kept env job fun w => ∀ a ∈ w.history.attempts, a.call ∈ job.calls := by
  refine kept_attempts fun call hc w => ?_
  obtain ⟨_, _, a, hi, hm, rfl, -⟩ | ⟨_, _, a, hi, hm, rfl, -⟩ := invoke_cases env call w
  · exact ⟨a, hi ▸ hm, hc⟩
  · exact ⟨a, hi ▸ hm, hc⟩

/-- Nothing is called but what the job lists. -/
theorem Job.Makes.mem_calls {job : Job} {call : Invocation} (h : job.Makes call) :
    call ∈ job.calls := by
  cases h with
  | @paused env files p a hp ha => exact hp.attempts (kept_mem_calls env job) a ha
  | @performed env files log s a hs ha =>
    have hall : ∀ a ∈ s.world.history.attempts, a.call ∈ job.calls :=
      hs.history (H := fun t => ∀ a ∈ t.attempts, a.call ∈ job.calls) (List.forall_mem_nil _)
        fun hreturns => hreturns.attempts (kept_mem_calls env job)
    exact hall a ha

/-- A plan is had for a level up to three and for one named pass, and for nothing else, and it
    keeps the budget, the mode and the policy. Whatever the tools and the workspace are, the
    calls of a job on the plan fit together, no other calls are ever made, and the list of
    passes of an optimizer call tells what every such job normalizes with and tests. -/
theorem make_calls_fit (budget : Span) (mode : Mode) (policy : Policy) :
    ((∃ plan, Plan.make budget mode policy = .ok plan) ↔ mode.Allowed) ∧
    ∀ plan, Plan.make budget mode policy = .ok plan →
      (plan.budget = budget ∧ plan.mode = mode ∧ plan.policy = policy) ∧
      ∀ (toolchain : ToolchainSettings) (workspace : WorkspaceSettings),
        let job : Job := ⟨toolchain, workspace.artifacts, plan⟩
        (∀ call ∈ job.calls, job.Fits call) ∧
        (∀ call, job.Makes call → call ∈ job.calls) ∧
        ∀ job' : Job, ∀ call ∈ job.calls, ∀ call' ∈ job'.calls,
          call.step = .optimize → call'.step = .optimize → call.args[1]? = call'.args[1]? →
          toolchain.normalizationPass = job'.toolchain.normalizationPass ∧
            mode = job'.plan.mode := by
  refine ⟨Plan.exists_make_iff, fun plan hplan => ?_⟩
  obtain ⟨rfl, rfl, rfl⟩ := Plan.make_eq_ok_iff.1 hplan
  refine ⟨⟨rfl, rfl, rfl⟩, fun toolchain workspace => ?_⟩
  refine ⟨fun call => Job.fits_of_mem_calls, fun call => Job.Makes.mem_calls, ?_⟩
  intro job' call hc call' hc' hs hs' hsame
  exact (Job.fits_of_mem_calls hc).passes_injective (Job.fits_of_mem_calls hc') hs hs' hsame

/-- The built-in tools, with a normalization of two passes. -/
def normalizingTwice : ToolchainSettings :=
  { ToolchainSettings.default with normalizationPass := "mem2reg,sroa" }

/-- A normalization of two passes is told from the pass under test, since two passes cannot be
    under test. -/
theorem calls_fit_of_two_normalization_passes :
    (∃ plan, Plan.make (.ofSecs 60) (.singlePass "instcombine") .abort = .ok plan ∧
      let job : Job := ⟨normalizingTwice, WorkspaceSettings.default.artifacts, plan⟩
      let call := job.toolchain.optimize job.artifacts "instcombine"
      call.args = ["-S", "-passes=mem2reg,sroa,instcombine", "./random.ll", "--disable-output"] ∧
        job.Fits call) ∧
    ¬ ∃ plan, Plan.make (.ofSecs 60) (.singlePass "sroa,instcombine") .abort = .ok plan := by
  have hargs : (normalizingTwice.optimize WorkspaceSettings.default.artifacts "instcombine").args =
      ["-S", "-passes=mem2reg,sroa,instcombine", "./random.ll", "--disable-output"] := by
    decide +kernel
  constructor
  · obtain ⟨hmade, hfits⟩ := make_calls_fit (.ofSecs 60) (.singlePass "instcombine") .abort
    obtain ⟨plan, hplan⟩ := hmade.2 (.pass ⟨'i', by decide, by decide⟩ (by decide))
    obtain ⟨⟨-, hmode, -⟩, hcalls⟩ := hfits plan hplan
    refine ⟨plan, hplan, hargs, (hcalls normalizingTwice .default).1 _ ?_⟩
    unfold Job.calls Job.exercises
    rw [hmode]
    exact List.mem_cons_of_mem _ (List.mem_cons_of_mem _ (List.mem_singleton_self _))
  · intro hexists
    cases (make_calls_fit (.ofSecs 60) (.singlePass "sroa,instcombine") .abort).1.1 hexists with
    | pass _ hcomma => exact hcomma (by decide)

end CompilerFuzz.Campaign
