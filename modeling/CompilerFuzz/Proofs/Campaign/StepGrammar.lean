/-
  CompilerFuzz.Proofs.Campaign.StepGrammar

  The tools that a campaign starts, as a language, and its failing fast. What one iteration
  starts is a `Block`, if anything: runs of the generator of which only the last may give a
  program, then the calls of the mode up to the first without success. No program is left
  aside (`Round.exercised`): the calls of the mode follow it at once, in their order. An
  attempt that `Ends` the campaign is the last one of the whole run, and a campaign that
  returns an error returns the error of that attempt.
-/
import Mathlib.Data.List.Basic
import CompilerFuzz.Proofs.Campaign.Kept

namespace CompilerFuzz.Campaign

open CompilerFuzz.Files

namespace Job

/-- What is started in one iteration. -/
inductive Block (job : Job) : List Attempt → Prop
  | mk {failed last steps}
      (hf : ∀ a ∈ failed, a.call = job.generation ∧ a.succeeded = false)
      (hl : last.call = job.generation) (hs : steps ≠ [] → last.succeeded = true)
      (hc : steps.map Attempt.call <+: job.exercises)
      (hd : ∀ a ∈ steps.dropLast, a.succeeded = true) : Block job (failed ++ last :: steps)

/-- The attempts that end a campaign, after `earlier` others in the same iteration. -/
inductive Ends (job : Job) (earlier : Nat) (a : Attempt) : Prop
  | unstarted (h : a.started = false)
  | toolchain (hg : a.generates = false) (h : a.succeeded = false)
  | generator (hg : a.generates = true) (h : a.succeeded = false)
      (hp : job.plan.policy ≠ .skip) (hn : earlier + 1 = job.plan.policy.limit)

end Job

/-- The attempts of a campaign follow the grammar of steps and fail fast. -/
structure StepGrammar (env : Environment) (job : Job) (h : History) : Prop where
  /-- The attempts went as the system answered. -/
  answered : h.Answered env
  /-- The tools started are blocks one after another, at most one for each iteration. -/
  blocks : ∃ blocks : List (List Attempt),
    h.attempts.filter Attempt.started = blocks.flatten ∧
    blocks.Sublist (h.rounds.map (List.filter Attempt.started)) ∧ ∀ as ∈ blocks, job.Block as
  /-- Every iteration takes its whole course: the generator is run for as long as the policy
      allows and until it gives a program, and the program is taken on. -/
  course : ∀ as ∈ h.rounds, ∃ result, Round job as result
  /-- After a program come the calls of the mode, all of them up to the first that fails or
      cannot be started, and nothing else in that iteration. -/
  exercised : ∀ as ∈ h.rounds, ∀ before a steps, as = before ++ a :: steps → job.Fresh a →
    ∃ result, Sequence job.exercises steps result
  /-- Nothing is attempted after an attempt that ends the campaign. -/
  failFast : ∀ i as n a, h.rounds[i]? = some as → as[n]? = some a → job.Ends n a →
    i + 1 = h.rounds.length ∧ n + 1 = as.length

/-- The error that a campaign on the given files returns is that of its last attempt, unless
    nothing was attempted because the directory of the source file could not be made. -/
inductive Blamed (job : Job) (files : Tree) (h : History) : CampaignError → Prop
  | directory {dir cause} (hr : h.attempts = [])
      (hd : Path.parent? job.artifacts.source = some dir)
      (hm : (files.makeDirectories dir).2 = .error cause) : Blamed job files h (.io dir cause)
  | attempt {earlier before a e} (hr : h.rounds = earlier ++ [before ++ [a]])
      (hl : h.attempts.getLast? = some a) (ha : job.Ends before.length a)
      (he : a.Reported e) : Blamed job files h e

/-! ## Blocks -/

theorem Attempt.started_of_succeeded {a : Attempt} (h : a.succeeded = true) :
    a.started = true := by
  cases hs : a.started with
  | true => rfl
  | false =>
    rw [not_succeeded_of_not_started hs] at h
    cases h

theorem filter_started_of_failed {job : Job} {as : List Attempt} (h : ∀ a ∈ as, job.Failed a) :
    as.filter Attempt.started = as :=
  List.filter_eq_self.2 fun a ha => (h a ha).2.1

theorem filter_started_of_succeeded {as : List Attempt} (h : ∀ a ∈ as, a.succeeded = true) :
    as.filter Attempt.started = as :=
  List.filter_eq_self.2 fun a ha => Attempt.started_of_succeeded (h a ha)

/-- What the calls of the mode start: all of them succeeded but perhaps the last. -/
theorem Sequence.filter_started {calls : List Invocation} {as : List Attempt}
    {result : Except CampaignError Unit} (h : Sequence calls as result) :
    (as.filter Attempt.started).map Attempt.call <+: calls ∧
    ∀ a ∈ (as.filter Attempt.started).dropLast, a.succeeded = true := by
  have hc := h.map_call_prefix
  cases h with
  | done _ hs =>
    rw [filter_started_of_succeeded hs]
    exact ⟨hc, fun a ha => hs a (List.dropLast_subset _ ha)⟩
  | @broken done a e _ hs _ _ =>
    rw [List.filter_append, filter_started_of_succeeded hs]
    cases hstarted : a.started with
    | true =>
      rw [List.filter_cons_of_pos hstarted, List.filter_nil, List.dropLast_concat]
      exact ⟨hc, hs⟩
    | false =>
      rw [List.filter_cons_of_neg (by simp [hstarted]), List.filter_nil, List.append_nil]
      rw [List.map_append] at hc
      exact ⟨(List.prefix_append _ _).trans hc, fun a ha => hs a (List.dropLast_subset _ ha)⟩

theorem Job.Failed.not_succeeded {job : Job} {a : Attempt} (h : job.Failed a) :
    a.call = job.generation ∧ a.succeeded = false :=
  ⟨h.1, h.2.2⟩

/-- Runs of the generator alone are a block. -/
theorem block_of_generations {job : Job} {failed : List Attempt} {last : Attempt}
    (hf : ∀ a ∈ failed, job.Failed a) (hl : last.call = job.generation) :
    job.Block (failed ++ [last]) :=
  .mk (fun a ha => (hf a ha).not_succeeded) hl (absurd rfl) List.nil_prefix (List.forall_mem_nil _)

theorem block_of_failed {job : Job} {as : List Attempt} (h : ∀ a ∈ as, job.Failed a)
    (hne : as ≠ []) : job.Block as := by
  obtain ⟨init, last, rfl⟩ := List.eq_nil_or_concat as |>.resolve_left hne
  rw [List.concat_eq_append, List.forall_mem_append] at h
  rw [List.concat_eq_append]
  exact block_of_generations h.1 (List.forall_mem_singleton.1 h.2).1

theorem Generation.started_block {job : Job} {limit : Nat} {as : List Attempt}
    {result : Except CampaignError Bool} (h : Generation job limit as result) :
    as.filter Attempt.started = [] ∨ job.Block (as.filter Attempt.started) := by
  have hfailed : ∀ {as : List Attempt}, (∀ a ∈ as, job.Failed a) →
      as.filter Attempt.started = [] ∨ job.Block (as.filter Attempt.started) := by
    intro as hf
    rw [filter_started_of_failed hf]
    by_cases hne : as = []
    · exact .inl hne
    · exact .inr (block_of_failed hf hne)
  -- an attempt that was not started leaves no trace among those that were
  cases h with
  | @fresh failed a hf _ ha =>
    rw [List.filter_append, filter_started_of_failed hf,
      List.filter_cons_of_pos (Attempt.started_of_succeeded ha.2), List.filter_nil]
    exact .inr (block_of_generations hf ha.1)
  | skipped hf _ _ => exact hfailed hf
  | @exhausted failed a e hf _ ha _ _ =>
    exact hfailed (List.forall_mem_append.2 ⟨hf, List.forall_mem_singleton.2 ha⟩)
  | @unstarted failed a e hf _ _ hs _ =>
    rw [List.filter_append, List.filter_cons_of_neg (by simp [hs]), List.filter_nil,
      List.append_nil]
    exact hfailed hf

/-- A program, and the calls of the mode on it, are a block. -/
theorem block_of_fresh {job : Job} {limit : Nat} {as bs : List Attempt}
    {result : Except CampaignError Unit} (h : Generation job limit as (.ok true))
    (hs : Sequence job.exercises bs result) : job.Block ((as ++ bs).filter Attempt.started) := by
  obtain ⟨hc, hd⟩ := hs.filter_started
  cases h with
  | @fresh failed a hf _ ha =>
    rw [List.filter_append, List.filter_append, filter_started_of_failed hf,
      List.filter_cons_of_pos (Attempt.started_of_succeeded ha.2), List.filter_nil,
      List.append_assoc]
    exact .mk (fun b hb => (hf b hb).not_succeeded) ha.1 (fun _ => ha.2) hc hd

theorem Round.started_block {job : Job} {as : List Attempt} {result : Except CampaignError Bool}
    (h : Round job as result) :
    as.filter Attempt.started = [] ∨ job.Block (as.filter Attempt.started) := by
  cases h with
  | skipped h => exact h.started_block
  | ungenerated h => exact h.started_block
  | executed h hs => exact .inr (block_of_fresh h hs)
  | broken h hs => exact .inr (block_of_fresh h hs)

/-! ## Programs -/

theorem Job.Fresh.generates {job : Job} {a : Attempt} (h : job.Fresh a) : a.generates = true := by
  unfold Attempt.generates
  rw [h.1]
  rfl

/-- A generator step that gives no program has no successful attempt. -/
theorem Generation.succeeded_eq_false {job : Job} {limit : Nat} {as : List Attempt}
    {result : Except CampaignError Bool} (h : Generation job limit as result)
    (hr : result ≠ .ok true) : ∀ a ∈ as, a.succeeded = false := by
  cases h with
  | fresh _ _ _ => exact absurd rfl hr
  | skipped hf _ _ => exact fun b hb => (hf b hb).2.2
  | exhausted hf _ ha _ _ =>
    exact List.forall_mem_append.2 ⟨fun b hb => (hf b hb).2.2, List.forall_mem_singleton.2 ha.2.2⟩
  | unstarted hf _ _ hs _ =>
    have hlast := Attempt.not_succeeded_of_not_started hs
    exact List.forall_mem_append.2 ⟨fun b hb => (hf b hb).2.2, List.forall_mem_singleton.2 hlast⟩

/-- The program of an iteration is that of the last generator run: what stands behind it are
    the calls of the mode. -/
theorem Generation.steps_of_fresh {job : Job} {limit : Nat} {as bs : List Attempt}
    {result : Except CampaignError Unit} (h : Generation job limit as (.ok true))
    (hs : Sequence job.exercises bs result) {before steps : List Attempt} {a : Attempt}
    (heq : as ++ bs = before ++ a :: steps) (ha : job.Fresh a) : steps = bs := by
  cases h with
  | @fresh failed x hf _ _ =>
    -- a successful run of the generator is neither among the failed ones nor a call of the mode
    have hfailed : a ∉ failed := by
      intro hmem
      have hnot := (hf a hmem).2.2
      rw [ha.2] at hnot
      cases hnot
    have hbs : a ∉ bs := by
      intro hmem
      have hnot := hs.generates_eq_false a hmem
      rw [ha.generates] at hnot
      cases hnot
    rw [List.append_assoc, List.singleton_append] at heq
    exact ((List.append_cons_inj_of_notMem hfailed hbs).1 heq).2.2.symm

/-- A program is taken through the calls of the mode. -/
theorem Round.exercised {job : Job} {as : List Attempt} {result : Except CampaignError Bool}
    (h : Round job as result) {before steps : List Attempt} {a : Attempt}
    (heq : as = before ++ a :: steps) (ha : job.Fresh a) :
    ∃ result, Sequence job.exercises steps result := by
  have hnone : (∀ b ∈ as, b.succeeded = false) → ∃ result, Sequence job.exercises steps result := by
    intro hall
    have hnot := hall a (by simp [heq])
    rw [ha.2] at hnot
    cases hnot
  cases h with
  | skipped h => exact hnone (h.succeeded_eq_false (by simp))
  | ungenerated h => exact hnone (h.succeeded_eq_false (by simp))
  | executed h hs => exact ⟨_, h.steps_of_fresh hs heq ha ▸ hs⟩
  | broken h hs => exact ⟨_, h.steps_of_fresh hs heq ha ▸ hs⟩

/-! ## Attempts that end the campaign -/

namespace Job

/-- None of the attempts of an iteration ends the campaign. -/
def Quiet (job : Job) (as : List Attempt) : Prop :=
  ∀ n a, as[n]? = some a → ¬ job.Ends n a

/-- The last attempt of an iteration, and none before it, ends the campaign with an error. -/
def EndsWith (job : Job) (as : List Attempt) (e : CampaignError) : Prop :=
  ∃ before a, as = before ++ [a] ∧ job.Quiet before ∧ job.Ends before.length a ∧ a.Reported e

variable {job : Job} {as bs : List Attempt}

theorem not_ends_of_succeeded {n : Nat} {a : Attempt} (h : a.succeeded = true) :
    ¬ job.Ends n a := by
  intro hends
  cases hends with
  | unstarted hs =>
    rw [Attempt.started_of_succeeded h] at hs
    cases hs
  | toolchain _ hs =>
    rw [h] at hs
    cases hs
  | generator _ hs _ _ =>
    rw [h] at hs
    cases hs

theorem Failed.generates {a : Attempt} (h : job.Failed a) : a.generates = true := by
  unfold Attempt.generates
  rw [h.1]
  rfl

/-- Failed runs of the generator do not end the campaign while more are allowed, nor ever if
    they are skipped. -/
theorem quiet_of_failed (hf : ∀ a ∈ as, job.Failed a)
    (hlen : as.length < job.plan.policy.limit ∨ job.plan.policy = .skip) : job.Quiet as := by
  intro n a hn hends
  have ha : job.Failed a := hf a (List.mem_of_getElem? hn)
  have hlt : n < as.length := (List.getElem?_eq_some_iff.1 hn).1
  -- these are started calls of the generator, so only a policy that gives up could end it
  cases hends with
  | unstarted hs =>
    rw [ha.2.1] at hs
    cases hs
  | toolchain hg _ =>
    rw [ha.generates] at hg
    cases hg
  | generator _ _ hp hlimit =>
    rcases hlen with hlen | hskip
    · omega
    · exact hp hskip

theorem Quiet.append_succeeded (h : job.Quiet as) (hs : ∀ b ∈ bs, b.succeeded = true) :
    job.Quiet (as ++ bs) := by
  intro n a hn
  by_cases hlt : n < as.length
  · rw [List.getElem?_append_left hlt] at hn
    exact h n a hn
  · rw [List.getElem?_append_right (Nat.le_of_not_lt hlt)] at hn
    exact not_ends_of_succeeded (hs a (List.mem_of_getElem? hn))

end Job

theorem Generation.quiet {job : Job} {as : List Attempt} {executed : Bool}
    (h : Generation job job.plan.policy.limit as (.ok executed)) : job.Quiet as := by
  cases h with
  | fresh hf hlen ha =>
    exact (Job.quiet_of_failed hf (.inl hlen)).append_succeeded (List.forall_mem_singleton.2 ha.2)
  | skipped hf _ hp => exact Job.quiet_of_failed hf (.inr hp)

theorem Generation.endsWith {job : Job} {as : List Attempt} {e : CampaignError}
    (h : Generation job job.plan.policy.limit as (.error e)) : job.EndsWith as e := by
  cases h with
  | @exhausted failed a _ hf hlen ha hp he =>
    have hlt : failed.length < job.plan.policy.limit := hlen ▸ Nat.lt_succ_self _
    exact ⟨failed, a, rfl, Job.quiet_of_failed hf (.inl hlt),
      .generator ha.generates ha.2.2 hp hlen, he⟩
  | @unstarted failed a _ hf hlen _ hs he =>
    exact ⟨failed, a, rfl, Job.quiet_of_failed hf (.inl hlen), .unstarted hs, he⟩

/-- An iteration that ends without an error holds no attempt that ends the campaign. -/
theorem Round.quiet {job : Job} {as : List Attempt} {executed : Bool}
    (h : Round job as (.ok executed)) : job.Quiet as := by
  cases h with
  | skipped h => exact h.quiet
  | executed h hs =>
    cases hs with
    | done _ hs => exact h.quiet.append_succeeded hs

/-- An iteration that ends with an error does so because of its last attempt. -/
theorem Round.endsWith {job : Job} {as : List Attempt} {e : CampaignError}
    (h : Round job as (.error e)) : job.EndsWith as e := by
  cases h with
  | ungenerated h => exact h.endsWith
  | @broken as bs _ h hs =>
    have hgen : ∀ b ∈ bs, b.generates = false := hs.generates_eq_false
    cases hs with
    | @broken done a _ _ hs ha he =>
      refine ⟨as ++ done, a, (List.append_assoc ..).symm, h.quiet.append_succeeded hs, ?_, he⟩
      exact .toolchain (hgen a (by simp)) ha

/-- Of the attempts of an iteration that ends with an error, only the last ends the campaign. -/
theorem Job.EndsWith.eq_last {job : Job} {as : List Attempt} {e : CampaignError}
    (h : job.EndsWith as e) {n : Nat} {a : Attempt} (hn : as[n]? = some a)
    (hends : job.Ends n a) : n + 1 = as.length := by
  obtain ⟨before, last, rfl, hquiet, -, -⟩ := h
  have hlen : n < (before ++ [last]).length := (List.getElem?_eq_some_iff.1 hn).1
  have hbefore : ¬ n < before.length := by
    intro hlt
    rw [List.getElem?_append_left hlt] at hn
    exact hquiet n a hn hends
  rw [List.length_append, List.length_singleton] at hlen ⊢
  omega

/-- An iteration ends with an error exactly if one of its attempts ends the campaign, and then
    with the error that this attempt is reported as. -/
theorem Round.eq_error_iff {job : Job} {as : List Attempt} {result : Except CampaignError Bool}
    (h : Round job as result) (e : CampaignError) :
    result = .error e ↔ ∃ n a, as[n]? = some a ∧ job.Ends n a ∧ a.Reported e := by
  constructor
  · rintro rfl
    obtain ⟨before, last, rfl, -, hends, hreported⟩ := h.endsWith
    exact ⟨before.length, last, List.getElem?_concat_length, hends, hreported⟩
  · rintro ⟨n, a, hn, hends, hreported⟩
    cases result with
    | ok executed => exact absurd hends (h.quiet n a hn)
    | error e' =>
      have hlast : n + 1 = as.length := h.endsWith.eq_last hn hends
      obtain ⟨before, last, rfl, -, -, hreported'⟩ := h.endsWith
      rw [List.length_append, List.length_singleton] at hlast
      obtain rfl : n = before.length := Nat.succ.inj hlast
      rw [List.getElem?_concat_length] at hn
      obtain rfl := Option.some.inj hn
      rw [hreported.unique hreported']

/-! ## Whole runs -/

theorem closing_nil {job : Job} : Closing job [] .spent := .none nofun

theorem Closing.round {job : Job} {broken : List (List Attempt)} {ending : Ending}
    (hc : Closing job broken ending) : ∀ as ∈ broken, ∃ result, Round job as result := by
  cases hc with
  | none _ => exact List.forall_mem_nil _
  | broken hround _ => exact List.forall_mem_singleton.2 ⟨_, hround⟩

theorem Closing.eq_last {job : Job} {broken : List (List Attempt)} {ending : Ending}
    (hc : Closing job broken ending) {i n : Nat} {as : List Attempt} {a : Attempt}
    (hi : broken[i]? = some as) (hn : as[n]? = some a) (hends : job.Ends n a) :
    i + 1 = broken.length ∧ n + 1 = as.length := by
  cases hc with
  | none _ => cases hi
  | broken hround _ =>
    have hfirst : i < 1 := (List.getElem?_eq_some_iff.1 hi).1
    obtain rfl := Nat.lt_one_iff.1 hfirst
    obtain rfl := Option.some.inj hi
    exact ⟨rfl, hround.endsWith.eq_last hn hends⟩

/-- What is started falls into what the iterations start, those that start nothing left out. -/
theorem exists_blocks {job : Job} {h : History}
    (hround : ∀ as ∈ h.rounds, ∃ result, Round job as result) :
    ∃ blocks : List (List Attempt), h.attempts.filter Attempt.started = blocks.flatten ∧
      blocks.Sublist (h.rounds.map (List.filter Attempt.started)) ∧
      ∀ as ∈ blocks, job.Block as := by
  refine ⟨(h.rounds.map (List.filter Attempt.started)).filter fun as => !as.isEmpty, ?_,
    List.filter_sublist, fun as has => ?_⟩
  · rw [List.flatten_filter_not_isEmpty, ← List.filter_flatten, History.flatten_rounds]
  · obtain ⟨hmem, hne⟩ := List.mem_filter.1 has
    obtain ⟨bs, hbs, rfl⟩ := List.mem_map.1 hmem
    obtain ⟨_, hbs⟩ := hround bs hbs
    refine hbs.started_block.resolve_left fun hnil => ?_
    rw [hnil] at hne
    cases hne

/-- The grammar holds if all iterations but perhaps the last have ended without an error. -/
theorem StepGrammar.of_rounds {env : Environment} {job : Job} {h : History}
    {ended broken : List (List Attempt)} {ending : Ending} (ha : h.Answered env)
    (hr : h.rounds = ended ++ broken) (hok : ∀ as ∈ ended, ∃ b, Round job as (.ok b))
    (hc : Closing job broken ending) : StepGrammar env job h := by
  have hrounds : ∀ as ∈ h.rounds, ∃ result, Round job as result := by
    rw [hr, List.forall_mem_append]
    refine ⟨fun as has => ?_, hc.round⟩
    obtain ⟨_, hround⟩ := hok as has
    exact ⟨_, hround⟩
  refine ⟨ha, exists_blocks hrounds, hrounds, ?_, ?_⟩
  · intro as has before a steps heq ha
    obtain ⟨_, hround⟩ := hrounds as has
    exact hround.exercised heq ha
  · intro i as n a hi hn hends
    rw [hr] at hi ⊢
    by_cases hlt : i < ended.length
    · -- an iteration that ended without an error holds no such attempt
      rw [List.getElem?_append_left hlt] at hi
      obtain ⟨_, hround⟩ := hok as (List.mem_of_getElem? hi)
      exact absurd hends (hround.quiet n a hn)
    · rw [List.getElem?_append_right (Nat.le_of_not_lt hlt)] at hi
      obtain ⟨hround, hattempt⟩ := hc.eq_last hi hn hends
      refine ⟨?_, hattempt⟩
      rw [List.length_append, ← hround]
      omega

/-- The error of a course that failed is that of its last attempt, unless none was made. -/
theorem Complete.blamed {env : Environment} {job : Job} {files : Tree} {c : Course}
    (h : Complete env job files c) {e : CampaignError} (he : c.ending = .failed e) {t : History}
    (ht : t.rounds = c.world.history.rounds) : Blamed job files t e := by
  cases h with
  | unprepared hprepare =>
    cases he
    obtain ⟨hnil, dir, cause, hdir, hcause, rfl⟩ := prepare_error hprepare
    dsimp only at ht
    rw [hnil] at ht
    refine .directory ?_ hdir hcause
    rw [← History.flatten_rounds, ht]
    rfl
  | finished _ hturn =>
    obtain ⟨broken, hclosing, -, hrounds, -⟩ := finished_cases hturn
    rw [hrounds] at ht
    rw [he] at hclosing
    cases hclosing with
    -- a failed course was ended by an iteration, and that is the last one
    | none hne => exact absurd rfl (hne e)
    | @broken as e' _ hround hending =>
      obtain rfl : e = e' := by
        rcases hending with hending | hending
        · cases hending
        · exact Ending.failed.inj hending
      obtain ⟨before, a, rfl, -, hends, hreported⟩ := hround.endsWith
      refine .attempt ht ?_ hends hreported
      rw [← History.flatten_rounds, ht]
      simp

theorem Complete.stepGrammar {env : Environment} {job : Job} {files : Tree} {c : Course}
    (h : Complete env job files c) {t : History} (ha : t.Answered env)
    (ht : t.rounds = c.world.history.rounds) : StepGrammar env job t := by
  cases h with
  | unprepared hprepare =>
    dsimp only at ht
    rw [(prepare_error hprepare).1] at ht
    have hnone : t.rounds = [] ++ [] := ht
    exact .of_rounds ha hnone (List.forall_mem_nil _) closing_nil
  | finished hp hturn =>
    obtain ⟨broken, hclosing, -, hrounds, -⟩ := finished_cases hturn
    exact .of_rounds ha (ht.trans hrounds) hp.round_ok hclosing

/-- Single-pass campaigns that call the generator twice at most. -/
def retrying : Job where
  toolchain := ⟨"gen", [], "cc", "opt", [], [], "norm"⟩
  artifacts := ⟨"prog.c", "prog.ll", "prog"⟩
  plan := ⟨.ofSecs 1, .singlePass "licm", .retry 1, rfl⟩

/-- Tools of which the generator fails the first time and the optimizer the second time. -/
def flaky (stop : History → Bool) : Environment where
  respond h _ call :=
    let fails : Bool :=
      match call.step with
      | .generate => h.attempts.isEmpty
      | .optimize => h.attempts.any fun a => a.call.step == .optimize
      | .compile | .emitIr => false
    .ran ⟨some (if fails then 1 else 0), [], []⟩ id
  elapsed _ := .zero
  latency _ := .zero
  stop := stop

/-- Whatever the tools, the clock and the stop flag answer, the first run of a campaign
    follows the grammar of steps and fails fast, at every pause and when it has finished;
    an error that it returns is that of its last attempt. -/
theorem run_stepGrammar (env : Environment) (job : Job) (files : Tree) :
    (∀ p, Reached env job files p → StepGrammar env job p.world.history) ∧
    ∀ fuel result s, Session.run env fuel job (Session.start files) = some (result, s) →
      StepGrammar env job s.world.history ∧
      ∀ e, result = .error e → Blamed job files s.world.history e := by
  constructor
  · intro p hp
    exact .of_rounds hp.answered (List.append_nil _).symm hp.round_ok closing_nil
  · intro fuel result s hrun
    obtain ⟨c, hcomplete, hresult, hrounds, -⟩ := run_start_cases hrun
    have hreturns : Returns env job files result s := ⟨fuel, hrun⟩
    refine ⟨hcomplete.stepGrammar hreturns.answered hrounds, fun e he => ?_⟩
    rw [hresult] at he
    exact hcomplete.blamed (Course.ending_of_result_eq_error he) hrounds

/-- The first program is exercised; the second one the optimizer fails on. -/
theorem stepGrammar_of_failing_optimizer :
    ∃ s e, Session.run (flaky fun _ => false) 2 retrying (Session.start ⟨[]⟩) = some (.error e, s) ∧
      e = .toolchain .optimize (some 1) "" ∧
      StepGrammar (flaky fun _ => false) retrying s.world.history ∧
      Blamed retrying ⟨[]⟩ s.world.history e := by
  have hrun : (Session.run (flaky fun _ => false) 2 retrying (Session.start ⟨[]⟩)).any fun r =>
      match r.1 with
      | .ok _ => false
      | .error e => e == .toolchain .optimize (some 1) "" := by
    decide +kernel
  obtain ⟨⟨result, s⟩, hs, he⟩ := (Option.any_eq_true _ _).1 hrun
  obtain ⟨hgrammar, hblamed⟩ := (run_stepGrammar _ retrying ⟨[]⟩).2 2 result s hs
  cases result with
  | ok summary => cases he
  | error e => exact ⟨s, e, hs, eq_of_beq he, hgrammar, hblamed e rfl⟩

end CompilerFuzz.Campaign
