/-
  CompilerFuzz.Proofs.Campaign.Policies

  One campaign under two policies. A policy is looked at in one place, when the generator has
  failed as often as the policy allows; up to there the generator step is the same under all
  policies (`generate_under`). Two runs are compared turn by turn: if every turn that the
  first one takes is the same for the second, the runs are the same (`SameRun.of_turn`),
  whether they return or not.
-/
import CompilerFuzz.Proofs.Campaign.Cleanup
import CompilerFuzz.Proofs.Campaign.Freshness
import CompilerFuzz.Proofs.Campaign.Interruption
import CompilerFuzz.Proofs.Campaign.Pace

namespace CompilerFuzz.Campaign

open CompilerFuzz.Files

/-- The same job under another policy. -/
def Job.under (job : Job) (policy : Policy) : Job :=
  { job with plan := { job.plan with policy := policy } }

/-- No run of the generator has failed. -/
def History.Flawless (h : History) : Prop := ∀ a ∈ h.attempts, a.isFailedGeneration = false

/-- The first run of a campaign on the given files is the same for two jobs: it comes to the
    same pauses, and it returns the same result and leaves the same state, files and history,
    if it returns at all. -/
structure SameRun (env : Environment) (files : Tree) (job job' : Job) : Prop where
  pauses : ∀ a, Reached env job files a ↔ Reached env job' files a
  run : ∀ fuel, Session.run env fuel job (Session.start files) =
    Session.run env fuel job' (Session.start files)

variable {env : Environment} {job : Job} {files : Tree} {p q : Policy}

/-! ## The generator step -/

theorem failures_le_generateWithin (env : Environment) (job : Job) (extra failures : Nat)
    (w : World) : failures ≤ (generateWithin env job extra failures w).failures := by
  obtain ⟨as, -, -, hcount⟩ := generateWithin_generates env job extra failures w
  omega

/-- If the generator does not run and fail, no policy is looked at and no further run made. -/
theorem generateWithin_under_cases (env : Environment) (job : Job) (failures : Nat) (w : World) :
    (∃ stage, ∀ policy extra, generateWithin env (job.under policy) extra failures w = stage) ∨
    ∃ o w', (∀ policy, invoke env (job.under policy).generation w = (.ok o, w')) ∧
      o.success = false := by
  cases hi : invoke env job.generation w with
  | mk result w' =>
    cases result with
    | error e => exact .inl ⟨_, fun _ extra => generateWithin_of_error extra hi⟩
    | ok o =>
      cases ho : o.success with
      | true => exact .inl ⟨_, fun _ extra => generateWithin_of_success extra hi ho⟩
      | false => exact .inr ⟨o, w', fun _ => hi, ho⟩

/-- A generator step that fails less often than either policy allows is the same under both.
    By induction on the runs that the first policy still allows. -/
theorem generateWithin_under {extra extra' failures : Nat} {w : World}
    (hp : (generateWithin env (job.under p) extra failures w).failures ≤ failures + extra)
    (hq : (generateWithin env (job.under p) extra failures w).failures ≤ failures + extra') :
    generateWithin env (job.under q) extra' failures w =
      generateWithin env (job.under p) extra failures w := by
  induction extra generalizing extra' failures w with
  | zero =>
    obtain ⟨stage, hstage⟩ | ⟨o, w', hi, ho⟩ := generateWithin_under_cases env job failures w
    · rw [hstage q, hstage p]
    · -- the one run that was left has failed, once more than `hp` allows
      rw [generateWithin_zero_of_failure (hi p) ho] at hp
      exact absurd hp (Nat.not_succ_le_self failures)
  | succ extra ih =>
    obtain ⟨stage, hstage⟩ | ⟨o, w', hi, ho⟩ := generateWithin_under_cases env job failures w
    · rw [hstage q, hstage p]
    · rw [generateWithin_succ_of_failure _ (hi p) ho] at hp hq ⊢
      -- this failure is counted, so the other policy has a run left as well
      have hfailed := failures_le_generateWithin env (job.under p) extra (failures + 1) w'
      cases extra' with
      | zero => omega
      | succ extra' =>
        rw [generateWithin_succ_of_failure _ (hi q) ho]
        exact ih (by omega) (by omega)

theorem generate_under {w : World} (hp : (generate env (job.under p) w).failures < p.limit)
    (hq : (generate env (job.under p) w).failures < q.limit) :
    generate env (job.under q) w = generate env (job.under p) w := by
  have hextra : ∀ limit, (generate env (job.under p) w).failures < limit →
      (generate env (job.under p) w).failures ≤ 0 + (limit - 1) := by
    intro limit hlimit
    omega
  exact generateWithin_under (hextra p.limit hp) (hextra q.limit hq)

/-- No extra attempts are the policy to abort: one run, and the same error. -/
theorem generate_abort (env : Environment) (job : Job) (w : World) :
    generate env (job.under .abort) w = generate env (job.under (.retry 0)) w := by
  show generateWithin env (job.under .abort) 0 0 w = generateWithin env (job.under (.retry 0)) 0 0 w
  obtain ⟨stage, hstage⟩ | ⟨o, w', hi, ho⟩ := generateWithin_under_cases env job 0 w
  · rw [hstage, hstage]
  · rw [generateWithin_zero_of_failure (hi _) ho, generateWithin_zero_of_failure (hi _) ho]
    rfl

/-! ## Turns and runs -/

/-- The policy matters to an iteration in its generator step alone. -/
theorem iterate_under {w : World}
    (h : generate env (job.under q) w = generate env (job.under p) w) :
    iterate env (job.under q) w = iterate env (job.under p) w := by
  unfold iterate
  rw [h]
  rfl

/-- The policy matters to a turn in the iteration that it makes, if it makes one. -/
theorem turn_under {a : Pause}
    (h : a.elapsed < job.plan.budget → env.stop a.world.history = false →
      generate env (job.under q) (a.world.log (.stopCheck false)) =
        generate env (job.under p) (a.world.log (.stopCheck false))) :
    turn env (job.under q) a = turn env (job.under p) a := by
  by_cases hlt : a.elapsed < job.plan.budget
  · have hbudget : ∀ policy, a.elapsed < (job.under policy).plan.budget := fun _ => hlt
    cases hs : env.stop a.world.history with
    | true => rw [turn_of_stopped (hbudget q) hs, turn_of_stopped (hbudget p) hs]
    | false =>
      rw [turn_of_unset (hbudget q) hs, turn_of_unset (hbudget p) hs, iterate_under (h hlt hs)]
  · have hspent : ∀ policy, ¬ a.elapsed < (job.under policy).plan.budget := fun _ => hlt
    rw [turn_of_spent (hspent q), turn_of_spent (hspent p)]

theorem Turn.andThen_congr {t : Turn} {rest rest' : Pause → Option Course}
    (h : ∀ b, t = .next b → rest b = rest' b) : t.andThen rest = t.andThen rest' := by
  cases t with
  | next b => exact h b rfl
  | finished c => rfl

theorem turns_under (h : ∀ a, Reached env (job.under p) files a →
      turn env (job.under q) a = turn env (job.under p) a)
    (fuel : Nat) {a : Pause} (ha : Reached env (job.under p) files a) :
    turns env (job.under p) fuel a = turns env (job.under q) fuel a := by
  induction fuel generalizing a with
  | zero => rfl
  | succ fuel ih =>
    rw [turns_succ, turns_succ, h a ha]
    exact Turn.andThen_congr fun b hb => ih (ha.next hb)

/-- If every turn of the run under one policy is the same under another, so is the run. -/
theorem SameRun.of_turn (h : ∀ a, Reached env (job.under p) files a →
      turn env (job.under q) a = turn env (job.under p) a) :
    SameRun env files (job.under p) (job.under q) where
  pauses a := by
    constructor
    · rintro ⟨w, hw, hsteps⟩
      refine ⟨w, hw, ?_⟩
      induction hsteps with
      | refl => exact .refl
      | tail hab hbc ih => exact ih.tail ((h _ ⟨w, hw, hab⟩).trans hbc)
    · -- a pause of the second run is one of the first, so its next turn is the same
      rintro ⟨w, hw, hsteps⟩
      induction hsteps with
      | refl => exact ⟨w, hw, .refl⟩
      | tail _ hbc ih => exact ih.next ((h _ ih).symm.trans hbc)
  run fuel := by
    have hcourse : course env fuel (job.under p) ⟨files, []⟩ =
        course env fuel (job.under q) ⟨files, []⟩ := by
      -- the preparation does not depend on the policy
      have hprepare : prepare (job.under q) ⟨files, []⟩ = prepare (job.under p) ⟨files, []⟩ := rfl
      unfold course
      rw [hprepare]
      split
      · rfl
      · next w hw => exact turns_under h fuel ⟨w, hw, .refl⟩
    rw [run_start, run_start, hcourse]
    rfl

/-! ## Failures of the generator in an iteration -/

theorem iterate_failures (env : Environment) (job : Job) (w : World) :
    (iterate env job w).failures = (generate env job w).failures := by
  unfold iterate
  generalize generate env job w = g
  obtain ⟨result, failures, w'⟩ := g
  cases result with
  | error e => rfl
  | ok executed =>
    cases executed with
    | false => rfl
    | true =>
      dsimp only
      generalize exercise env job w' = x
      obtain ⟨result, w''⟩ := x
      cases result <;> rfl

theorem History.flawless_append {h t : History} :
    History.Flawless (h ++ t) ↔ h.Flawless ∧ t.Flawless := by
  unfold History.Flawless
  rw [History.attempts_append, List.forall_mem_append]

/-- The iteration that begins at a pause is there to be seen, whether it leads on or not. -/
theorem Reached.iteration_seen {a : Pause} (ha : Reached env job files a)
    (hbudget : a.elapsed < job.plan.budget) (hunset : env.stop a.world.history = false) :
    ∃ h, Seen env job files h ∧
      (iterate env job (a.world.log (.stopCheck false))).world.history <+: h := by
  have hturn := turn_of_unset hbudget hunset
  cases hresult : (iterate env job (a.world.log (.stopCheck false))).result with
  | ok executed =>
    rw [settle_of_ok hresult] at hturn
    exact ⟨_, .paused (ha.next hturn), (List.prefix_append _ _).trans (List.prefix_append _ _)⟩
  | error e =>
    rw [settle_of_error hresult] at hturn
    have hc : Complete env job files _ := .finished ha hturn
    exact ⟨_, hc.seen, (List.prefix_append _ _).trans (List.prefix_append _ _)⟩

/-- Where only flawless histories are seen, no generator step counts a failure. -/
theorem Reached.generate_flawless (hflawless : ∀ h, Seen env job files h → h.Flawless) {a : Pause}
    (ha : Reached env job files a) (hbudget : a.elapsed < job.plan.budget)
    (hunset : env.stop a.world.history = false) :
    (generate env job (a.world.log (.stopCheck false))).failures = 0 := by
  obtain ⟨h, hseen, t, rfl⟩ := ha.iteration_seen hbudget hunset
  obtain ⟨as, hm, -, hcount⟩ := iterate_made env job (a.world.log (.stopCheck false))
  rw [← iterate_failures, hcount, List.countP_eq_zero]
  intro b hb
  have hmem : b ∈ History.attempts _ := hm.attempts_eq ▸ List.mem_append_right _ hb
  rw [(History.flawless_append.1 (hflawless _ hseen)).1 b hmem]
  exact Bool.false_ne_true

theorem Generation.countP_isFailedGeneration_lt {limit : Nat} {as : List Attempt}
    (h : Generation job limit as (.ok true)) : as.countP Attempt.isFailedGeneration < limit := by
  cases h with
  | @fresh failed a hf hlen ha =>
    have hlast : a.isFailedGeneration = false := by
      unfold Attempt.isFailedGeneration
      rw [ha.2]
      exact Bool.and_false _
    rw [List.countP_append, List.countP_singleton, hlast]
    exact Nat.lt_of_le_of_lt List.countP_le_length hlen

/-- An iteration that ends well without being skipped has not used up the runs allowed. -/
theorem generate_failures_lt {w : World} {executed : Bool}
    (h : (iterate env job w).result = .ok executed) (hskip : job.plan.policy ≠ .skip) :
    (generate env job w).failures < job.plan.policy.limit := by
  obtain ⟨as, -, hr, hcount⟩ := iterate_made env job w
  rw [← iterate_failures, hcount]
  rw [h] at hr
  cases hr with
  | skipped hg =>
    cases hg with
    | skipped _ _ hp => exact absurd hp hskip
  | executed hg hs =>
    rw [List.countP_append, hs.countP_isFailedGeneration]
    exact hg.countP_isFailedGeneration_lt

/-- No iteration of a run that spends its budget ends with an error. -/
theorem Returns.iterate_ok {summary : Summary} {s : Session}
    (h : Returns env job files (.ok summary) s) (hspent : summary.interrupted = false) {a : Pause}
    (ha : Reached env job files a) (hbudget : a.elapsed < job.plan.budget)
    (hunset : env.stop a.world.history = false) :
    ∃ executed, (iterate env job (a.world.log (.stopCheck false))).result = .ok executed := by
  cases hresult : (iterate env job (a.world.log (.stopCheck false))).result with
  | ok executed => exact ⟨executed, rfl⟩
  | error e =>
    -- the flag decides what the error makes of the run, which returns a summary of neither kind
    obtain ⟨as, hiterates⟩ := exists_iterates job hbudget hunset
    have hbreaks : Breaks env job a e _ := (hiterates.result_eq_error_iff e).1 hresult
    cases hs : env.stop (iterate env job (a.world.log (.stopCheck false))).world.history with
    | true =>
      have hinterrupted := h.interrupted_of_foundSet ha (.failing hbreaks hs)
      exact absurd (hspent.symm.trans hinterrupted) Bool.false_ne_true
    | false =>
      obtain ⟨s', hs'⟩ := hbreaks.aborts ha hs
      cases (h.unique hs').1

theorem Policy.limit_retry_le {n m : UInt32} (h : n ≤ m) :
    (Policy.retry n).limit ≤ (Policy.retry m).limit := by
  have hnat : n.toNat ≤ m.toNat := UInt32.le_iff_toNat_le.1 h
  have hmore : min (n.toNat + 1) Text.maxWord32 ≤ m.toNat + 1 :=
    Nat.le_trans (Nat.min_le_left _ _) (Nat.succ_le_succ hnat)
  exact Nat.le_min.2 ⟨hmore, Nat.min_le_right _ _⟩

/-- A generator that exits with status zero whenever it runs leaves flawless histories. -/
theorem kept_flawless (h : ∀ earlier found exit effect,
      env.respond earlier found job.generation = .ran exit effect → exit.status = some 0) :
    Kept env job fun w => w.history.Flawless := by
  refine kept_attempts fun call hc w => ?_
  obtain ⟨e, w', a, hi, hm, -, hs, -⟩ | ⟨o, w', a, hi, hm, rfl, -, ho, -⟩ := invoke_cases env call w
  · refine ⟨a, hi ▸ hm, ?_⟩
    unfold Attempt.isFailedGeneration Attempt.isGeneration
    rw [hs, Bool.and_false, Bool.false_and]
  · refine ⟨a, hi ▸ hm, ?_⟩
    unfold Attempt.isFailedGeneration Attempt.isGeneration Attempt.generates
    rcases List.mem_cons.1 hc with heq | hc
    · obtain ⟨_, exit, _, -, hrespond, rfl, -⟩ := invoke_eq_ok hi
      rw [heq] at hrespond
      have hsuccess : Outcome.success (.ofExit a.call exit) = true :=
        beq_iff_eq.2 (h _ _ _ _ hrespond)
      rw [ho, hsuccess, Bool.not_true, Bool.and_false]
    · rw [beq_eq_false_iff_ne.2 (generates_eq_false_of_mem_exercises hc), Bool.false_and,
        Bool.false_and]

theorem Seen.flawless (hkept : Kept env job fun w => w.history.Flawless) {h : History}
    (hs : Seen env job files h) : h.Flawless := by
  cases hs with
  | paused hp => exact hp.attempts hkept
  | returned hreturns => exact hreturns.attempts hkept

/-! ## Policies on whole runs -/

theorem SameRun.of_flawless (h : ∀ t, Seen env (job.under p) files t → t.Flawless) (q : Policy) :
    SameRun env files (job.under p) (job.under q) := by
  refine .of_turn fun a ha => turn_under fun hbudget hunset => ?_
  -- every policy allows for at least one run, and none has failed
  have hnone := ha.generate_flawless h hbudget hunset
  exact generate_under (hnone ▸ p.limit_pos) (hnone ▸ q.limit_pos)

theorem SameRun.of_spent {n m : UInt32} (hle : n ≤ m) {summary : Summary} {s : Session}
    (h : Returns env (job.under (.retry n)) files (.ok summary) s)
    (hspent : summary.interrupted = false) :
    SameRun env files (job.under (.retry n)) (job.under (.retry m)) := by
  refine .of_turn fun a ha => turn_under fun hbudget hunset => ?_
  obtain ⟨executed, hok⟩ := h.iterate_ok hspent ha hbudget hunset
  -- the iteration has ended well, so a run was left under the smaller policy
  have hfew := generate_failures_lt hok nofun
  exact generate_under hfew (Nat.lt_of_lt_of_le hfew (Policy.limit_retry_le hle))

/-- Whatever the tools, the clock and the stop flag answer, policies relate as follows on whole
    runs, whether these return or not. No extra attempts are the policy to abort. If the
    generator does not fail in the run under one policy, the run is the same under every other.
    If the run returns a summary and is not interrupted, more attempts would not change it. -/
theorem run_policies (env : Environment) (job : Job) (files : Tree) :
    SameRun env files (job.under (.retry 0)) (job.under .abort) ∧
    (∀ p, (∀ h, Seen env (job.under p) files h → h.Flawless) →
      ∀ q, SameRun env files (job.under p) (job.under q)) ∧
    ∀ n m summary s, n ≤ m → Returns env (job.under (.retry n)) files (.ok summary) s →
      summary.interrupted = false →
      SameRun env files (job.under (.retry n)) (job.under (.retry m)) :=
  ⟨.of_turn fun _ _ => turn_under fun _ _ => generate_abort env job _,
    fun _ h q => .of_flawless h q, fun _ _ _ _ hle h hspent => .of_spent hle h hspent⟩

/-- One extra attempt saves the first program, so seven give the same run. The run whose
    optimizer is killed does not depend on the policy, its generator never failing. -/
theorem policies_of_recovering_generator :
    (∃ summary s, Session.run recovering 2 (retrying.under (.retry 1)) (Session.start ⟨[]⟩) =
        some (.ok summary, s) ∧
      summary.generatorFailures = 1 ∧ summary.interrupted = false ∧
      Session.run recovering 2 (retrying.under (.retry 7)) (Session.start ⟨[]⟩) =
        some (.ok summary, s)) ∧
    (∀ h, Seen emitting (nested.under .abort) littered h → h.Flawless) ∧
    SameRun emitting littered (nested.under .abort) (nested.under .skip) := by
  have hrun : (Session.run recovering 2 (retrying.under (.retry 1)) (Session.start ⟨[]⟩)).any
      fun r =>
      match r.1 with
      | .ok summary => summary.generatorFailures == 1 && !summary.interrupted
      | .error _ => false := by
    decide +kernel
  obtain ⟨⟨result, s⟩, hs, hcounts⟩ := (Option.any_eq_true _ _).1 hrun
  -- this generator ends with status zero whatever it is asked
  have hkept : Kept emitting (nested.under .abort) fun w => w.history.Flawless := by
    refine kept_flawless fun earlier found exit effect hrespond => ?_
    cases hrespond
    rfl
  have hflawless : ∀ h, Seen emitting (nested.under .abort) littered h → h.Flawless :=
    fun h hseen => hseen.flawless hkept
  cases result with
  | error e => cases hcounts
  | ok summary =>
    obtain ⟨hfailures, hinterrupted⟩ := Bool.and_eq_true_iff.1 hcounts
    have hspent : summary.interrupted = false := by simpa using hinterrupted
    have hsame := (run_policies recovering retrying ⟨[]⟩).2.2 1 7 summary s (by decide) ⟨2, hs⟩
      hspent
    exact ⟨⟨summary, s, hs, eq_of_beq hfailures, hspent, (hsame.run 2).symm.trans hs⟩, hflawless,
      (run_policies emitting nested littered).2.1 .abort hflawless .skip⟩

end CompilerFuzz.Campaign
