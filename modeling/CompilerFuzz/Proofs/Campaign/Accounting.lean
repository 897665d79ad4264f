/-
  CompilerFuzz.Proofs.Campaign.Accounting

  The books of a campaign agree with its history. At every pause the tally is what the
  attempts so far say (`Counted`). A summary accounts for every run of the generator: it
  led to an execution, it failed, or the campaign was interrupted before its program had
  been exercised (`Accounts`). And the progress reports stand among the attempts where the
  iterations end (`Shown`).
-/
import CompilerFuzz.Proofs.Campaign.StepGrammar

namespace CompilerFuzz.Campaign

open CompilerFuzz.Files

namespace Job

/-- Did an iteration get a program, and did every call of the mode succeed on it? -/
def executes (job : Job) (as : List Attempt) : Bool :=
  as.any Attempt.isProgram &&
    job.exercises.all fun call => as.any fun a => a.call == call && a.succeeded

/-- An iteration that was skipped for want of a program. -/
def Skips (job : Job) (as : List Attempt) : Prop :=
  job.plan.policy = .skip ∧ ∀ a ∈ as, job.Failed a

/-- Did the last iteration get a program that was not exercised to the end? -/
def cutShort (job : Job) (h : History) : Bool :=
  h.rounds.getLast?.any fun as => as.any Attempt.isProgram && !job.executes as

/-- What is seen of iterations that end without an error, if `executed` have been executed
    before them: after its attempts each of them is reported. -/
def told (job : Job) : (executed : Nat) → List (List Attempt) → List Beat
  | _, [] => []
  | n, as :: rounds =>
    as.map .attempt ++
      .update (n + (job.executes as).toNat) :: job.told (n + (job.executes as).toNat) rounds

end Job

/-- At a pause, the tally is right and every iteration so far has been reported. -/
structure Counted (job : Job) (p : Pause) : Prop where
  executed : p.tally.executed = p.world.history.rounds.countP job.executes
  recorded : p.tally.latency.count = p.tally.executed
  failures :
    p.tally.generatorFailures = p.world.history.attempts.countP Attempt.isFailedGeneration
  ended : ∀ as ∈ p.world.history.rounds, job.executes as = true ∨ job.Skips as
  reported : p.world.history.beats = .update 0 :: job.told 0 p.world.history.rounds

/-- The summary of a campaign agrees with its history. -/
structure Accounts (job : Job) (h : History) (summary : Summary) : Prop where
  executed : summary.executed = h.rounds.countP job.executes
  recorded : summary.latency.count = summary.executed
  failures : summary.generatorFailures = h.attempts.countP Attempt.isFailedGeneration
  generations : h.attempts.countP Attempt.isGeneration =
    summary.executed + summary.generatorFailures + (job.cutShort h).toNat
  interrupted : job.cutShort h = true → summary.interrupted = true

/-- What is seen of a campaign on the given files that has finished, whatever its result. -/
inductive Shown (job : Job) (files : Tree) (h : History) : Prop
  /-- The directory of the source file could not be made. -/
  | unprepared (hd : ¬ job.Prepared files) (hr : h.rounds = []) (hb : h.beats = [.finish 0])
  | iterated {ended broken} (hd : job.Prepared files) (hr : h.rounds = ended ++ broken)
      (hok : ∀ as ∈ ended, job.executes as = true ∨ job.Skips as)
      (hlen : broken.length ≤ 1) (hbroken : ∀ as ∈ broken, ∃ e, job.EndsWith as e)
      (hb : h.beats = .update 0 :: job.told 0 ended ++ broken.flatten.map .attempt ++
        [.finish (h.rounds.countP job.executes)])

/-! ## Programs -/

/-- A run of the generator failed or gave a program, and not both. -/
theorem Attempt.ite_isGeneration (a : Attempt) :
    (if a.isGeneration then 1 else 0) =
      (if a.isFailedGeneration then 1 else 0) + if a.isProgram then 1 else 0 := by
  unfold isFailedGeneration isProgram isGeneration
  cases hs : a.started with
  | true => cases a.generates <;> cases a.succeeded <;> rfl
  | false =>
    rw [not_succeeded_of_not_started hs]
    cases a.generates <;> rfl

theorem countP_isGeneration (as : List Attempt) :
    as.countP Attempt.isGeneration =
      as.countP Attempt.isFailedGeneration + as.countP Attempt.isProgram := by
  induction as with
  | nil => rfl
  | cons a as ih =>
    have ha := a.ite_isGeneration
    simp only [List.countP_cons]
    omega

theorem countP_isProgram_of_failed {job : Job} {as : List Attempt}
    (h : ∀ a ∈ as, job.Failed a) : as.countP Attempt.isProgram = 0 := by
  rw [List.countP_eq_zero]
  intro a ha
  simp [Attempt.isProgram, (h a ha).2.2]

theorem countP_isProgram_concat {job : Job} {failed : List Attempt} (a : Attempt)
    (h : ∀ b ∈ failed, job.Failed b) :
    (failed ++ [a]).countP Attempt.isProgram = a.isProgram.toNat := by
  rw [List.countP_append, countP_isProgram_of_failed h, List.countP_singleton, Nat.zero_add]
  cases a.isProgram <;> rfl

/-- The generator step gives one program if it says so. -/
theorem Generation.countP_isProgram_of_ok {job : Job} {limit : Nat} {as : List Attempt}
    {executed : Bool} (h : Generation job limit as (.ok executed)) :
    as.countP Attempt.isProgram = executed.toNat := by
  cases h with
  | fresh hf _ ha =>
    rw [countP_isProgram_concat _ hf, Attempt.isProgram, Attempt.generates, ha.1, ha.2]
    rfl
  | skipped hf _ _ => exact countP_isProgram_of_failed hf

theorem Generation.countP_isProgram_of_error {job : Job} {limit : Nat} {as : List Attempt}
    {e : CampaignError} (h : Generation job limit as (.error e)) :
    as.countP Attempt.isProgram = 0 := by
  cases h with
  | exhausted hf _ ha _ _ =>
    rw [countP_isProgram_concat _ hf, Attempt.isProgram, ha.2.2, Bool.and_false]
    rfl
  | unstarted hf _ _ hs _ =>
    rw [countP_isProgram_concat _ hf, Attempt.isProgram, Attempt.not_succeeded_of_not_started hs,
      Bool.and_false]
    rfl

theorem Generation.generates {job : Job} {limit : Nat} {as : List Attempt}
    {result : Except CampaignError Bool} (h : Generation job limit as result) :
    ∀ a ∈ as, a.generates = true := by
  have hfailed : ∀ {as : List Attempt}, (∀ a ∈ as, job.Failed a) → ∀ a ∈ as, a.generates = true :=
    fun hf a ha => (hf a ha).generates
  have hone : ∀ {a : Attempt}, a.call = job.generation → ∀ b ∈ [a], b.generates = true := by
    intro a ha
    rw [List.forall_mem_singleton, Attempt.generates, ha]
    rfl
  cases h with
  | fresh hf _ ha => exact List.forall_mem_append.2 ⟨hfailed hf, hone ha.1⟩
  | skipped hf _ _ => exact hfailed hf
  | exhausted hf _ ha _ _ => exact List.forall_mem_append.2 ⟨hfailed hf, hone ha.1⟩
  | unstarted hf _ ha _ _ => exact List.forall_mem_append.2 ⟨hfailed hf, hone ha⟩

theorem Sequence.countP_isProgram {job : Job} {as : List Attempt}
    {result : Except CampaignError Unit} (h : Sequence job.exercises as result) :
    as.countP Attempt.isProgram = 0 := by
  rw [List.countP_eq_zero]
  intro a ha
  simp [Attempt.isProgram, h.generates_eq_false a ha]

/-- An iteration that ends without an error gets a program if it is executed. -/
theorem Round.countP_isProgram_of_ok {job : Job} {as : List Attempt} {executed : Bool}
    (h : Round job as (.ok executed)) : as.countP Attempt.isProgram = executed.toNat := by
  cases h with
  | skipped h => exact h.countP_isProgram_of_ok
  | executed h hs =>
    rw [List.countP_append, h.countP_isProgram_of_ok, hs.countP_isProgram]
    rfl

theorem Round.countP_isProgram_le {job : Job} {as : List Attempt}
    {result : Except CampaignError Bool} (h : Round job as result) :
    as.countP Attempt.isProgram ≤ 1 := by
  cases result with
  | ok executed =>
    rw [h.countP_isProgram_of_ok]
    exact Bool.toNat_le executed
  | error e =>
    cases h with
    | ungenerated h =>
      rw [h.countP_isProgram_of_error]
      exact Nat.zero_le 1
    | broken h hs =>
      rw [List.countP_append, h.countP_isProgram_of_ok, hs.countP_isProgram]
      exact Nat.le_refl 1

/-! ## Executed iterations -/

theorem nodup_exercises (job : Job) : job.exercises.Nodup := by
  unfold Job.exercises
  cases job.plan.mode with
  | pipeline level => exact List.pairwise_singleton _ _
  | singlePass name =>
    refine List.nodup_cons.2 ⟨?_, List.pairwise_singleton _ _⟩
    rw [List.mem_singleton]
    exact fun h => Step.noConfusion (congrArg Invocation.step h)

theorem any_isProgram_eq_false {as : List Attempt} (h : as.countP Attempt.isProgram = 0) :
    as.any Attempt.isProgram = false := by
  rw [List.any_eq_false]
  exact List.countP_eq_zero.1 h

/-- Every call of the mode succeeded in an iteration that made them all. -/
theorem executes_of_done {job : Job} {as bs : List Attempt}
    (hp : 0 < as.countP Attempt.isProgram) (hs : Sequence job.exercises bs (.ok ())) :
    job.executes (as ++ bs) = true := by
  unfold Job.executes
  rw [Bool.and_eq_true]
  constructor
  · obtain ⟨a, ha, hprogram⟩ := List.countP_pos_iff.1 hp
    exact List.any_eq_true.2 ⟨a, List.mem_append_left _ ha, hprogram⟩
  · rw [List.all_eq_true]
    intro call hcall
    cases hs with
    | done hc hs =>
      rw [← hc] at hcall
      obtain ⟨a, ha, rfl⟩ := List.mem_map.1 hcall
      refine List.any_eq_true.2 ⟨a, List.mem_append_right _ ha, ?_⟩
      rw [hs a ha, beq_self_eq_true]
      rfl

/-- The call that failed is made once only, so it never succeeded. -/
theorem not_executes_of_broken {job : Job} {as bs : List Attempt} {e : CampaignError}
    (hg : ∀ a ∈ as, a.generates = true) (hs : Sequence job.exercises bs (.error e)) :
    job.executes (as ++ bs) = false := by
  have hgenerates := hs.generates_eq_false
  cases hs with
  | @broken done a _ hc hs ha _ =>
    have hmem : a.call ∈ job.exercises := hc.subset (by simp)
    have hnodup : ((done ++ [a]).map Attempt.call).Nodup :=
      hc.sublist.nodup (nodup_exercises job)
    rw [List.map_append, List.nodup_append] at hnodup
    have hnone : ¬ ∃ b ∈ as ++ (done ++ [a]), (b.call == a.call && b.succeeded) = true := by
      rintro ⟨b, hb, hboth⟩
      obtain ⟨hcall, hsucceeded⟩ := Bool.and_eq_true_iff.1 hboth
      have hcall : b.call = a.call := eq_of_beq hcall
      rcases List.mem_append.1 hb with hb | hb
      · -- the generator is none of the calls of the mode
        have hsame : b.generates = a.generates := congrArg (·.step == .generate) hcall
        rw [hg b hb, hgenerates a (by simp)] at hsame
        cases hsame
      rcases List.mem_append.1 hb with hb | hb
      · -- a call stands but once among those of the mode
        exact hnodup.2.2 _ (List.mem_map_of_mem hb) _ (List.mem_singleton_self _) hcall
      · rw [List.mem_singleton.1 hb, ha] at hsucceeded
        cases hsucceeded
    unfold Job.executes
    rw [Bool.and_eq_false_iff]
    refine .inr (Bool.eq_false_iff.2 fun hall => hnone ?_)
    exact List.any_eq_true.1 (List.all_eq_true.1 hall a.call hmem)

/-- An iteration is executed if that is what it ends with. -/
theorem Round.executes_iff {job : Job} {as : List Attempt} {result : Except CampaignError Bool}
    (h : Round job as result) : job.executes as = true ↔ result = .ok true := by
  have hnone : as.countP Attempt.isProgram = 0 → job.executes as = false := by
    intro hcount
    rw [Job.executes, any_isProgram_eq_false hcount, Bool.false_and]
  cases h with
  | skipped h =>
    rw [hnone h.countP_isProgram_of_ok]
    exact ⟨nofun, nofun⟩
  | ungenerated h =>
    rw [hnone h.countP_isProgram_of_error]
    exact ⟨nofun, nofun⟩
  | executed h hs =>
    have hone := h.countP_isProgram_of_ok
    exact ⟨fun _ => rfl, fun _ => executes_of_done (hone ▸ Nat.zero_lt_one) hs⟩
  | broken h hs =>
    rw [not_executes_of_broken h.generates hs]
    exact ⟨nofun, nofun⟩

theorem Round.executes_eq {job : Job} {as : List Attempt} {executed : Bool}
    (h : Round job as (.ok executed)) : job.executes as = executed := by
  rw [Bool.eq_iff_iff, h.executes_iff]
  exact ⟨fun h => Except.ok.inj h, congrArg _⟩

/-- An iteration that ends without an error was executed or skipped. -/
theorem Round.executes_or_skips {job : Job} {as : List Attempt} {executed : Bool}
    (h : Round job as (.ok executed)) : job.executes as = true ∨ job.Skips as := by
  have hexecutes := h.executes_eq
  cases h with
  | executed _ _ => exact .inl hexecutes
  | skipped h =>
    cases h with
    | skipped hf _ hp => exact .inr ⟨hp, hf⟩

/-! ## Pauses -/

theorem told_concat (job : Job) (n : Nat) (rounds : List (List Attempt)) (as : List Attempt) :
    job.told n (rounds ++ [as]) = job.told n rounds ++ as.map .attempt ++
      [.update (n + rounds.countP job.executes + (job.executes as).toNat)] := by
  induction rounds generalizing n with
  | nil => simp [Job.told]
  | cons bs rounds ih =>
    -- the first round raises the count of all that follow it
    have hsum : n + (job.executes bs).toNat + rounds.countP job.executes =
        n + (bs :: rounds).countP job.executes := by
      rw [List.countP_cons]
      cases job.executes bs with
      | false => simp
      | true =>
        simp only [Bool.toNat_true, if_true]
        omega
    show _ ++ _ :: job.told _ (rounds ++ [as]) = (_ ++ _ :: job.told _ rounds) ++ _ ++ _
    rw [ih, hsum]
    simp

theorem countP_executes_concat (job : Job) (rounds : List (List Attempt)) (as : List Attempt) :
    (rounds ++ [as]).countP job.executes =
      rounds.countP job.executes + (job.executes as).toNat := by
  rw [List.countP_append, List.countP_singleton]
  cases job.executes as <;> rfl

theorem counted_firstPause (env : Environment) (job : Job) {w : World} (hw : w.history = []) :
    Counted job (firstPause env w) := by
  have hrounds : (firstPause env w).world.history.rounds = [] := firstPause_rounds hw
  refine ⟨?_, rfl, ?_, ?_, ?_⟩
  · rw [hrounds]
    rfl
  · rw [← History.flatten_rounds, hrounds]
    rfl
  · rw [hrounds]
    exact List.forall_mem_nil _
  · rw [hrounds, firstPause_beats hw]
    rfl

/-- Every turn of the loop keeps the books. -/
theorem Counted.turn {env : Environment} {job : Job} {p q : Pause} (h : Counted job p)
    (hturn : turn env job p = .next q) : Counted job q := by
  obtain ⟨as, executed, latency, hround, htally, hrounds, hbeats⟩ := next_cases hturn
  have hexecuted : q.tally.executed = q.world.history.rounds.countP job.executes := by
    rw [htally, Tally.executed_count, hrounds, countP_executes_concat, h.executed,
      hround.executes_eq]
  refine ⟨hexecuted, ?_, ?_, ?_, ?_⟩
  · rw [htally, Tally.count_latency_count, Tally.executed_count, h.recorded]
  · rw [htally, Tally.generatorFailures_count, h.failures, ← History.flatten_rounds,
      ← History.flatten_rounds, hrounds, List.flatten_concat, List.countP_append]
  · rw [hrounds, List.forall_mem_append, List.forall_mem_singleton]
    exact ⟨h.ended, hround.executes_or_skips⟩
  · rw [hbeats, h.reported, hexecuted, hrounds, told_concat, countP_executes_concat]
    simp

theorem Reached.counted {env : Environment} {job : Job} {files : Tree} {p : Pause}
    (h : Reached env job files p) : Counted job p :=
  h.invariant (fun _ hw => counted_firstPause env job hw) fun _ _ hp hturn => hp.turn hturn

/-! ## Finished runs -/

theorem Round.toNat_any_isProgram {job : Job} {as : List Attempt}
    {result : Except CampaignError Bool} (h : Round job as result) :
    (as.any Attempt.isProgram).toNat = as.countP Attempt.isProgram := by
  have hle : as.countP Attempt.isProgram ≤ 1 := h.countP_isProgram_le
  cases hany : as.any Attempt.isProgram with
  | false =>
    have hnone : ∀ a ∈ as, ¬ a.isProgram = true := List.any_eq_false.1 hany
    exact (List.countP_eq_zero.2 hnone).symm
  | true =>
    have hpos : 0 < as.countP Attempt.isProgram :=
      List.countP_pos_iff.2 (List.any_eq_true.1 hany)
    show 1 = _
    omega

section Rounds

variable {job : Job} {h : History} {ended broken : List (List Attempt)} {ending : Ending}

theorem countP_isProgram_flatten (hok : ∀ as ∈ ended, ∃ b, Round job as (.ok b)) :
    ended.flatten.countP Attempt.isProgram = ended.countP job.executes := by
  induction ended with
  | nil => rfl
  | cons as ended ih =>
    obtain ⟨⟨executed, hround⟩, hrest⟩ := List.forall_mem_cons.1 hok
    rw [List.flatten_cons, List.countP_append, ih hrest, List.countP_cons, hround.executes_eq,
      hround.countP_isProgram_of_ok]
    cases executed with
    | false => simp
    | true => exact Nat.add_comm 1 _

theorem Closing.countP_executes (hc : Closing job broken ending) :
    broken.countP job.executes = 0 := by
  cases hc with
  | none _ => rfl
  | broken hround _ =>
    rw [List.countP_cons_of_neg fun h => nomatch hround.executes_iff.1 h]
    rfl

/-- A program that has not been exercised to the end is one of the last iteration. -/
theorem toNat_cutShort (hr : h.rounds = ended ++ broken)
    (hok : ∀ as ∈ ended, ∃ b, Round job as (.ok b)) (hc : Closing job broken ending) :
    (job.cutShort h).toNat = broken.flatten.countP Attempt.isProgram := by
  unfold Job.cutShort
  rw [hr]
  cases hc with
  | none _ =>
    -- the last iteration ended without an error, so its program, if any, was exercised
    rw [List.append_nil]
    cases hlast : ended.getLast? with
    | none => rfl
    | some as =>
      obtain ⟨executed, hround⟩ := hok as (List.mem_of_getLast? hlast)
      have hprogram : (as.any Attempt.isProgram).toNat = executed.toNat := by
        rw [hround.toNat_any_isProgram, hround.countP_isProgram_of_ok]
      show (as.any Attempt.isProgram && !job.executes as).toNat = 0
      rw [hround.executes_eq]
      revert hprogram
      cases as.any Attempt.isProgram <;> cases executed <;> simp
  | @broken as e _ hround _ =>
    have hnot : job.executes as = false :=
      Bool.eq_false_iff.2 fun h => nomatch hround.executes_iff.1 h
    rw [List.getLast?_concat, List.flatten_singleton, ← hround.toNat_any_isProgram]
    show (as.any Attempt.isProgram && !job.executes as).toNat = _
    rw [hnot, Bool.not_false, Bool.and_true]

/-- A spent budget is noticed between iterations only, when nothing is cut short. -/
theorem cutShort_of_spent (hr : h.rounds = ended ++ broken)
    (hok : ∀ as ∈ ended, ∃ b, Round job as (.ok b)) (hc : Closing job broken .spent) :
    job.cutShort h = false := by
  have hcut := toNat_cutShort hr hok hc
  cases hc with
  | none _ => exact Bool.toNat_eq_zero.1 hcut
  | broken _ h => rcases h with h | h <;> cases h

end Rounds

theorem Complete.executed {env : Environment} {job : Job} {files : Tree} {c : Course}
    (h : Complete env job files c) :
    c.tally.executed = c.world.history.rounds.countP job.executes := by
  cases h with
  | unprepared hprepare =>
    dsimp only
    rw [(prepare_error hprepare).1]
    rfl
  | finished hp hturn =>
    obtain ⟨broken, hclosing, htally, hrounds, -⟩ := finished_cases hturn
    rw [htally, hrounds, List.countP_append, hclosing.countP_executes]
    exact hp.counted.executed

/-- The summary of a complete course agrees with what happened. -/
theorem Complete.accounts {env : Environment} {job : Job} {files : Tree} {c : Course}
    (h : Complete env job files c) {t : History} (ht : t.rounds = c.world.history.rounds)
    {elapsed : Span} {state : Lifecycle} {summary : Summary}
    (hs : c.result elapsed state = .ok summary) : Accounts job t summary := by
  obtain ⟨hexecuted, hfailures, hlatency, hending⟩ := Course.summary_of_result_eq_ok hs
  rw [h.executed, ← ht] at hexecuted
  cases h with
  | unprepared _ => cases hs
  | @finished p _ hp hturn =>
    obtain ⟨broken, hclosing, htally, hrounds, -⟩ := finished_cases hturn
    have hcounted : Counted job p := hp.counted
    rw [hrounds] at ht
    have hattempts : t.attempts = p.world.history.attempts ++ broken.flatten := by
      rw [← History.flatten_rounds, ht, List.flatten_append, History.flatten_rounds]
    have hpaused : summary.executed = p.world.history.rounds.countP job.executes := by
      rw [hexecuted, ht, List.countP_append, hclosing.countP_executes, Nat.add_zero]
    have hfailed : summary.generatorFailures = t.attempts.countP Attempt.isFailedGeneration := by
      rw [hfailures, htally, hattempts, List.countP_append, ← hcounted.failures]
      rfl
    have hcut := toNat_cutShort ht hp.round_ok hclosing
    -- an iteration that broke off adds nothing to what was executed, but perhaps a program
    refine ⟨hexecuted, ?_, hfailed, ?_, fun hcutShort => ?_⟩
    · rw [hlatency, htally, hpaused, ← hcounted.executed]
      exact hcounted.recorded
    · have hprograms : t.attempts.countP Attempt.isProgram =
          summary.executed + (job.cutShort t).toNat := by
        rw [hcut, hattempts, List.countP_append, ← History.flatten_rounds,
          countP_isProgram_flatten hp.round_ok, hpaused]
      rw [countP_isGeneration, hprograms, hfailed]
      omega
    · rcases hending with hspent | ⟨-, hinterrupted⟩
      · rw [hspent] at hclosing
        rw [cutShort_of_spent ht hp.round_ok hclosing] at hcutShort
        cases hcutShort
      · exact hinterrupted

/-- The progress of a complete course has been shown as it should. -/
theorem Complete.shown {env : Environment} {job : Job} {files : Tree} {c : Course}
    (h : Complete env job files c) {t : History} (ht : t.rounds = c.world.history.rounds)
    (hb : t.beats = c.world.history.beats ++ [.finish c.tally.executed]) :
    Shown job files t := by
  rw [h.executed, ← ht] at hb
  cases h with
  | unprepared hprepare =>
    dsimp only at ht hb
    rw [(prepare_error hprepare).1] at ht hb
    rw [ht] at hb
    exact .unprepared (not_prepared_of_error hprepare) ht hb
  | @finished p _ hp hturn =>
    obtain ⟨broken, hclosing, -, hrounds, hbeats⟩ := finished_cases hturn
    -- what was seen up to the last pause, then the attempts of the iteration that failed, if any
    rw [hbeats, hp.counted.reported] at hb
    refine .iterated hp.prepared (ht.trans hrounds) hp.counted.ended ?_ ?_ hb
    · cases hclosing with
      | none _ => exact Nat.zero_le 1
      | broken _ _ => exact Nat.le_refl 1
    · cases hclosing with
      | none _ => exact List.forall_mem_nil _
      | broken hround _ => exact List.forall_mem_singleton.2 ⟨_, hround.endsWith⟩

/-- Whatever the tools, the clock and the stop flag answer, the books of the first run of a
    campaign are right at every pause; when it has finished, its progress has been shown up
    to one last report, and a summary agrees with what happened. -/
theorem run_accounting (env : Environment) (job : Job) (files : Tree) :
    (∀ p, Reached env job files p → Counted job p) ∧
    ∀ fuel result s, Session.run env fuel job (Session.start files) = some (result, s) →
      Shown job files s.world.history ∧
      ∀ summary, result = .ok summary → Accounts job s.world.history summary := by
  constructor
  · exact fun p hp => hp.counted
  · intro fuel result s hrun
    obtain ⟨c, hcomplete, hresult, hrounds, hbeats⟩ := run_start_cases hrun
    refine ⟨hcomplete.shown hrounds hbeats, fun summary hs => ?_⟩
    rw [hresult] at hs
    exact hcomplete.accounts hrounds hs

/-- A stop is requested while the optimizer fails on the second program. -/
theorem accounting_of_interrupted_optimizer :
    ∃ s summary, Session.run (flaky fun h => 7 ≤ h.attempts.length) 2 retrying
        (Session.start ⟨[]⟩) = some (.ok summary, s) ∧
      summary.executed = 1 ∧ summary.generatorFailures = 1 ∧
      retrying.cutShort s.world.history = true ∧
      Shown retrying ⟨[]⟩ s.world.history ∧ Accounts retrying s.world.history summary := by
  have hrun : (Session.run (flaky fun h => 7 ≤ h.attempts.length) 2 retrying
      (Session.start ⟨[]⟩)).any fun r =>
      match r.1 with
      | .ok summary => summary.executed == 1 && summary.generatorFailures == 1 &&
          retrying.cutShort r.2.world.history
      | .error _ => false := by
    decide +kernel
  obtain ⟨⟨result, s⟩, hs, hsummary⟩ := (Option.any_eq_true _ _).1 hrun
  obtain ⟨hshown, haccounts⟩ := (run_accounting _ retrying ⟨[]⟩).2 2 result s hs
  cases result with
  | error e => cases hsummary
  | ok summary =>
    obtain ⟨hcounts, hcut⟩ := Bool.and_eq_true_iff.1 hsummary
    obtain ⟨hexecuted, hfailures⟩ := Bool.and_eq_true_iff.1 hcounts
    exact ⟨s, summary, hs, eq_of_beq hexecuted, eq_of_beq hfailures, hcut, hshown,
      haccounts summary rfl⟩

end CompilerFuzz.Campaign
