/-
  CompilerFuzz.Proofs.Campaign.Round

  The attempts of one iteration, and its result. `Generation` tells what the generator step
  does under a policy, `Round` what a whole iteration does: failed runs of the generator,
  one run that gives a program, and the calls of the mode up to the first that fails.
  Every iteration is such a round (`iterate_made`), whatever the tools answer.
-/
import CompilerFuzz.Campaign.Iteration
import CompilerFuzz.Proofs.Campaign.Attempts

namespace CompilerFuzz.Campaign

/-! ## One attempt -/

theorem output_of_openOutput_eq_error {call : Invocation} {files : Files.Tree} {path : Files.Path}
    {cause : Files.Cause} (h : openOutput call files = .error (path, cause)) :
    call.output = .file path := by
  unfold openOutput at h
  split at h
  · cases h
  · cases h
  · next p hp =>
    split at h
    · cases h
    · cases h
      exact hp

/-- A program that ran was asked for as the call says. -/
theorem respond_of_answer {env : Environment} {call : Invocation} {w : World} {files : Files.Tree}
    {exit : Exit} {effect : Files.Tree → Files.Tree}
    (h : env.answer call w files = .ran exit effect) :
    env.respond w.history files call = .ran exit effect := by
  unfold Environment.answer at h
  split at h
  · cases h
  · exact h

/-- A call gives an outcome only if its program ran, once the output was open. -/
theorem invoke_eq_ok {env : Environment} {call : Invocation} {w w' : World} {o : Outcome}
    (h : invoke env call w = (.ok o, w')) :
    ∃ files exit effect, openOutput call w.files = .ok files ∧
      env.respond w.history files call = .ran exit effect ∧ o = .ofExit call exit ∧
      w' = (w.withFiles (effect (deliver call exit.stdout files))).log
        (.call call files (.ended exit)) := by
  unfold invoke at h
  split at h
  · cases h
  · next files hopen =>
    split at h
    · cases h
    · next exit effect hanswer =>
      cases h
      exact ⟨files, exit, effect, hopen, respond_of_answer hanswer, rfl, rfl⟩

/-- A call is one attempt: either it is reported as an error without having run, or it ran,
    and its outcome tells how. -/
theorem invoke_cases (env : Environment) (call : Invocation) (w : World) :
    (∃ e w' a, invoke env call w = (.error e, w') ∧ w.Made [a] w' ∧ a.call = call ∧
      a.started = false ∧ a.Reported e) ∨
    (∃ o w' a, invoke env call w = (.ok o, w') ∧ w.Made [a] w' ∧ a.call = call ∧
      a.started = true ∧ a.succeeded = o.success ∧ (o.success = false → a.Reported o.error)) := by
  unfold invoke
  split
  · -- the file for the output could not be made
    next path cause hopen =>
    refine .inl ⟨_, _, ⟨call, .noOutput cause⟩, rfl, ⟨[(_, w.files)], rfl, rfl⟩, rfl, rfl, ?_⟩
    exact .noOutput (output_of_openOutput_eq_error hopen)
  · next files _ =>
    split
    · -- the tool was not started
      next cause _ =>
      refine .inl ⟨_, _, ⟨call, .notStarted cause⟩, rfl, ⟨[(_, files)], rfl, rfl⟩, rfl, rfl, ?_⟩
      exact .notStarted
    · -- the tool came to its end
      next exit effect _ =>
      refine .inr ⟨Outcome.ofExit call exit, _, ⟨call, .ended exit⟩, rfl,
        ⟨[(_, files)], rfl, rfl⟩, rfl, rfl, rfl, fun hs => ?_⟩
      have hstatus : exit.status ≠ some 0 := fun e => by
        simp [Outcome.success, Outcome.ofExit, e] at hs
      unfold Outcome.error Outcome.ofExit
      split
      · next hstep => exact .generator hstep hstatus
      · next hstep => exact .toolchain (fun e => hstep e) hstatus

/-! ## The generator step -/

namespace Job

/-- The call of the generator. -/
def generation (job : Job) : Invocation := job.toolchain.generate job.artifacts

/-- The calls that exercise the toolchain on a program. -/
def exercises (job : Job) : List Invocation :=
  match job.plan.mode with
  | .pipeline level => [job.toolchain.compile job.artifacts level]
  | .singlePass name =>
    [job.toolchain.emitIr job.artifacts, job.toolchain.optimize job.artifacts name]

/-- The generator was called, ran, and gave no program. -/
def Failed (job : Job) (a : Attempt) : Prop :=
  a.call = job.generation ∧ a.started = true ∧ a.succeeded = false

/-- The generator was called and gave a program. -/
def Fresh (job : Job) (a : Attempt) : Prop :=
  a.call = job.generation ∧ a.succeeded = true

end Job

/-- What the generator step attempts and how it ends, if at most `limit` runs are allowed. -/
inductive Generation (job : Job) (limit : Nat) : List Attempt → Except CampaignError Bool → Prop
  | fresh {failed a} (hf : ∀ b ∈ failed, job.Failed b) (hlen : failed.length < limit)
      (ha : job.Fresh a) : Generation job limit (failed ++ [a]) (.ok true)
  | skipped {failed} (hf : ∀ b ∈ failed, job.Failed b) (hlen : failed.length = limit)
      (hp : job.plan.policy = .skip) : Generation job limit failed (.ok false)
  | exhausted {failed a e} (hf : ∀ b ∈ failed, job.Failed b) (hlen : failed.length + 1 = limit)
      (ha : job.Failed a) (hp : job.plan.policy ≠ .skip) (he : a.Reported e) :
      Generation job limit (failed ++ [a]) (.error e)
  | unstarted {failed a e} (hf : ∀ b ∈ failed, job.Failed b) (hlen : failed.length < limit)
      (ha : a.call = job.generation) (hs : a.started = false) (he : a.Reported e) :
      Generation job limit (failed ++ [a]) (.error e)

/-- One more failed run in front uses up one more of those allowed. -/
theorem Generation.cons {job : Job} {limit : Nat} {as : List Attempt}
    {result : Except CampaignError Bool} (h : Generation job limit as result) {a : Attempt}
    (ha : job.Failed a) : Generation job (limit + 1) (a :: as) result := by
  have hcons : ∀ {failed : List Attempt}, (∀ b ∈ failed, job.Failed b) →
      ∀ b ∈ a :: failed, job.Failed b :=
    fun hf => List.forall_mem_cons.2 ⟨ha, hf⟩
  cases h with
  | fresh hf hlen hb => exact .fresh (hcons hf) (Nat.succ_lt_succ hlen) hb
  | skipped hf hlen hp => exact .skipped (hcons hf) (congrArg (· + 1) hlen) hp
  | exhausted hf hlen hb hp he => exact .exhausted (hcons hf) (congrArg (· + 1) hlen) hb hp he
  | unstarted hf hlen hb hs he => exact .unstarted (hcons hf) (Nat.succ_lt_succ hlen) hb hs he

theorem Job.Failed.isFailedGeneration {job : Job} {a : Attempt} (h : job.Failed a) :
    a.isFailedGeneration = true := by
  obtain ⟨hc, hs, hn⟩ := h
  unfold Attempt.isFailedGeneration Attempt.isGeneration Attempt.generates
  rw [hc, hs, hn]
  rfl

section Equations

variable {env : Environment} {job : Job} {w w' : World} {failures : Nat}

theorem generateWithin_of_error {e : CampaignError} (extra : Nat)
    (h : invoke env job.generation w = (.error e, w')) :
    generateWithin env job extra failures w = ⟨.error e, failures, w'⟩ := by
  unfold Job.generation at h
  unfold generateWithin
  rw [h]

theorem generateWithin_of_success {o : Outcome} (extra : Nat)
    (h : invoke env job.generation w = (.ok o, w')) (ho : o.success = true) :
    generateWithin env job extra failures w = ⟨.ok true, failures, w'⟩ := by
  unfold Job.generation at h
  unfold generateWithin
  rw [h]
  exact if_pos ho

theorem generateWithin_zero_of_failure {o : Outcome}
    (h : invoke env job.generation w = (.ok o, w')) (ho : o.success = false) :
    generateWithin env job 0 failures w = ⟨job.plan.policy.giveUp o, failures + 1, w'⟩ := by
  unfold Job.generation at h
  unfold generateWithin
  rw [h]
  exact if_neg (Bool.eq_false_iff.1 ho)

theorem generateWithin_succ_of_failure {o : Outcome} (extra : Nat)
    (h : invoke env job.generation w = (.ok o, w')) (ho : o.success = false) :
    generateWithin env job (extra + 1) failures w =
      generateWithin env job extra (failures + 1) w' := by
  unfold Job.generation at h
  conv => lhs; unfold generateWithin
  rw [h]
  exact if_neg (Bool.eq_false_iff.1 ho)

end Equations

/-- The attempts of a generator step with `limit` runs, from the world `w` on. -/
def Stage.Generates (stage : Stage Bool) (job : Job) (limit failures : Nat) (w : World) : Prop :=
  ∃ as, w.Made as stage.world ∧ Generation job limit as stage.result ∧
    stage.failures = failures + as.countP Attempt.isFailedGeneration

/-- After its first attempt the generator step has ended, or that was a failed run. -/
theorem generateWithin_cases (env : Environment) (job : Job) (extra failures : Nat) (w : World) :
    (generateWithin env job extra failures w).Generates job (extra + 1) failures w ∨
    ∃ o w' a, invoke env job.generation w = (.ok o, w') ∧ o.success = false ∧ w.Made [a] w' ∧
      job.Failed a ∧ a.Reported o.error := by
  have hnil : ∀ b ∈ ([] : List Attempt), job.Failed b := List.forall_mem_nil _
  obtain ⟨e, w', a, hi, hm, hc, hs, he⟩ | ⟨o, w', a, hi, hm, hc, hs, ho, he⟩ :=
    invoke_cases env job.generation w
  · rw [generateWithin_of_error extra hi]
    refine .inl ⟨[a], hm, .unstarted hnil (Nat.succ_pos extra) hc hs he, ?_⟩
    simp [Attempt.isFailedGeneration, Attempt.isGeneration, hs]
  · cases hsuccess : o.success with
    | true =>
      rw [generateWithin_of_success extra hi hsuccess]
      rw [hsuccess] at ho
      refine .inl ⟨[a], hm, .fresh hnil (Nat.succ_pos extra) ⟨hc, ho⟩, ?_⟩
      simp [Attempt.isFailedGeneration, ho]
    | false =>
      rw [hsuccess] at ho
      exact .inr ⟨o, w', a, hi, hsuccess, hm, ⟨hc, hs, ho⟩, he hsuccess⟩

/-- The generator step keeps to `Generation`, by induction on the runs still allowed. -/
theorem generateWithin_generates (env : Environment) (job : Job) (extra failures : Nat)
    (w : World) :
    (generateWithin env job extra failures w).Generates job (extra + 1) failures w := by
  induction extra generalizing failures w with
  | zero =>
    obtain h | ⟨o, w', a, hi, ho, hm, ha, he⟩ := generateWithin_cases env job 0 failures w
    · exact h
    · -- no run is left, and the policy decides what a failure means
      rw [generateWithin_zero_of_failure hi ho]
      refine ⟨[a], hm, ?_, by simp [ha.isFailedGeneration]⟩
      have hnil : ∀ b ∈ ([] : List Attempt), job.Failed b := List.forall_mem_nil _
      show Generation job 1 [a] (job.plan.policy.giveUp o)
      cases hp : job.plan.policy with
      | skip => exact .skipped (List.forall_mem_singleton.2 ha) rfl hp
      | abort => exact .exhausted hnil rfl ha (by rw [hp]; nofun) he
      | retry n => exact .exhausted hnil rfl ha (by rw [hp]; nofun) he
  | succ extra ih =>
    obtain h | ⟨o, w', a, hi, ho, hm, ha, -⟩ := generateWithin_cases env job (extra + 1) failures w
    · exact h
    · -- a failed run in front of whatever the generator does from the next world on
      rw [generateWithin_succ_of_failure extra hi ho]
      obtain ⟨as, hm', hg, hcount⟩ := ih (failures + 1) w'
      refine ⟨a :: as, hm.trans hm', hg.cons ha, ?_⟩
      rw [hcount, List.countP_cons_of_pos ha.isFailedGeneration]
      omega

/-! ## The calls of the mode -/

/-- Calls made in turn, up to the first without success, and how that ends. -/
inductive Sequence (calls : List Invocation) : List Attempt → Except CampaignError Unit → Prop
  | done {as} (hc : as.map Attempt.call = calls) (hs : ∀ a ∈ as, a.succeeded = true) :
      Sequence calls as (.ok ())
  | broken {done a e} (hc : (done ++ [a]).map Attempt.call <+: calls)
      (hs : ∀ b ∈ done, b.succeeded = true) (ha : a.succeeded = false) (he : a.Reported e) :
      Sequence calls (done ++ [a]) (.error e)

theorem require_cases (env : Environment) (call : Invocation) (w : World) :
    (∃ w' a, require env call w = (.ok (), w') ∧ w.Made [a] w' ∧ a.call = call ∧
      a.succeeded = true) ∨
    (∃ e w' a, require env call w = (.error e, w') ∧ w.Made [a] w' ∧ a.call = call ∧
      a.succeeded = false ∧ a.Reported e) := by
  unfold require
  obtain ⟨e, w', a, hi, hm, hc, hs, he⟩ | ⟨o, w', a, hi, hm, hc, -, ho, he⟩ :=
    invoke_cases env call w
  · rw [hi]
    exact .inr ⟨e, w', a, rfl, hm, hc, Attempt.not_succeeded_of_not_started hs, he⟩
  · rw [hi]
    cases hsuccess : o.success with
    | true => exact .inl ⟨w', a, by simp [hsuccess], hm, hc, ho.trans hsuccess⟩
    | false =>
      exact .inr ⟨o.error, w', a, by simp [hsuccess], hm, hc, ho.trans hsuccess, he hsuccess⟩

/-- The calls of the mode are made in turn. -/
theorem exercise_made (env : Environment) (job : Job) (w : World) :
    ∃ as, w.Made as (exercise env job w).2 ∧ Sequence job.exercises as (exercise env job w).1 := by
  have hnil : ∀ b ∈ ([] : List Attempt), b.succeeded = true := List.forall_mem_nil _
  have hone : ∀ {a : Attempt}, a.succeeded = true → ∀ b ∈ [a], b.succeeded = true :=
    fun ha => List.forall_mem_singleton.2 ha
  unfold exercise Job.exercises
  -- a call without success is the last one; the calls before it are a prefix of those of the mode
  cases job.plan.mode with
  | pipeline level =>
    dsimp only
    obtain ⟨w', a, hr, hm, hc, ha⟩ | ⟨e, w', a, hr, hm, hc, ha, he⟩ :=
      require_cases env (job.toolchain.compile job.artifacts level) w
    · rw [hr, ← hc]
      exact ⟨[a], hm, .done rfl (hone ha)⟩
    · rw [hr, ← hc]
      exact ⟨[a], hm, .broken List.prefix_rfl hnil ha he⟩
  | singlePass name =>
    dsimp only
    obtain ⟨w', a, hr, hm, hc, ha⟩ | ⟨e, w', a, hr, hm, hc, ha, he⟩ :=
      require_cases env (job.toolchain.emitIr job.artifacts) w
    · rw [hr]
      dsimp only
      obtain ⟨w'', b, hr', hm', hc', hb⟩ | ⟨e, w'', b, hr', hm', hc', hb, he⟩ :=
        require_cases env (job.toolchain.optimize job.artifacts name) w'
      · rw [hr', ← hc, ← hc']
        have hboth : ∀ c ∈ [a, b], c.succeeded = true := List.forall_mem_cons.2 ⟨ha, hone hb⟩
        exact ⟨[a, b], hm.trans hm', .done rfl hboth⟩
      · rw [hr', ← hc, ← hc']
        exact ⟨[a, b], hm.trans hm', .broken List.prefix_rfl (hone ha) hb he⟩
    · rw [hr, ← hc]
      exact ⟨[a], hm, .broken (List.prefix_append _ _) hnil ha he⟩

/-! ## A whole iteration -/

/-- What an iteration attempts, and how it ends. -/
inductive Round (job : Job) : List Attempt → Except CampaignError Bool → Prop
  | skipped {as} (h : Generation job job.plan.policy.limit as (.ok false)) :
      Round job as (.ok false)
  | ungenerated {as e} (h : Generation job job.plan.policy.limit as (.error e)) :
      Round job as (.error e)
  | executed {as bs} (h : Generation job job.plan.policy.limit as (.ok true))
      (hs : Sequence job.exercises bs (.ok ())) : Round job (as ++ bs) (.ok true)
  | broken {as bs e} (h : Generation job job.plan.policy.limit as (.ok true))
      (hs : Sequence job.exercises bs (.error e)) : Round job (as ++ bs) (.error e)

theorem generates_eq_false_of_mem_exercises {job : Job} {call : Invocation}
    (h : call ∈ job.exercises) : call.step ≠ .generate := by
  unfold Job.exercises at h
  split at h
  · rw [List.mem_singleton.1 h]
    nofun
  · rcases List.mem_cons.1 h with rfl | h
    · nofun
    · rw [List.mem_singleton.1 h]
      nofun

/-- What is called in turn is called in the order of the calls. -/
theorem Sequence.map_call_prefix {calls : List Invocation} {as : List Attempt}
    {result : Except CampaignError Unit} (h : Sequence calls as result) :
    as.map Attempt.call <+: calls := by
  cases h with
  | done hc hs => exact hc ▸ List.prefix_rfl
  | broken hc hs ha he => exact hc

/-- The calls of the mode are no calls of the generator. -/
theorem Sequence.generates_eq_false {job : Job} {as : List Attempt}
    {result : Except CampaignError Unit} (h : Sequence job.exercises as result) :
    ∀ a ∈ as, a.generates = false := by
  intro a ha
  have hmem : a.call ∈ job.exercises :=
    h.map_call_prefix.subset (List.mem_map_of_mem ha)
  exact beq_eq_false_iff_ne.2 (generates_eq_false_of_mem_exercises hmem)

theorem Sequence.countP_isFailedGeneration {job : Job} {as : List Attempt}
    {result : Except CampaignError Unit} (h : Sequence job.exercises as result) :
    as.countP Attempt.isFailedGeneration = 0 := by
  rw [List.countP_eq_zero]
  intro a ha
  simp [Attempt.isFailedGeneration, Attempt.isGeneration, h.generates_eq_false a ha]

/-- Every iteration is a round, and counts the failed runs of the generator in it. -/
theorem iterate_made (env : Environment) (job : Job) (w : World) :
    ∃ as, w.Made as (iterate env job w).world ∧ Round job as (iterate env job w).result ∧
      (iterate env job w).failures = as.countP Attempt.isFailedGeneration := by
  obtain ⟨as, hm, hg, hcount⟩ :=
    generateWithin_generates env job (job.plan.policy.limit - 1) 0 w
  rw [Nat.sub_add_cancel job.plan.policy.limit_pos] at hg
  rw [Nat.zero_add] at hcount
  unfold iterate
  change w.Made as (generate env job w).world at hm
  change Generation job _ as (generate env job w).result at hg
  change (generate env job w).failures = _ at hcount
  -- from here on only the three parts of the generator's stage matter
  generalize generate env job w = g at *
  obtain ⟨result, failures, w'⟩ := g
  dsimp only at *
  rcases result with e | executed
  · exact ⟨as, hm, .ungenerated hg, hcount⟩
  · cases executed with
    | false => exact ⟨as, hm, .skipped hg, hcount⟩
    | true =>
      obtain ⟨bs, hm', hs⟩ := exercise_made env job w'
      have hboth : failures = (as ++ bs).countP Attempt.isFailedGeneration := by
        rw [List.countP_append, hs.countP_isFailedGeneration, hcount, Nat.add_zero]
      dsimp only
      generalize exercise env job w' = x at *
      obtain ⟨result, w''⟩ := x
      rcases result with e | ⟨⟩
      · exact ⟨as ++ bs, hm.trans hm', .broken hg hs, hboth⟩
      · exact ⟨as ++ bs, hm.trans hm', .executed hg hs, hboth⟩

theorem Generation.ne_nil {job : Job} {as : List Attempt} {result : Except CampaignError Bool}
    (h : Generation job job.plan.policy.limit as result) : as ≠ [] := by
  cases h with
  | fresh hf hlen ha => simp
  | skipped hf hlen hp =>
    rintro rfl
    exact absurd hlen (Nat.ne_of_lt job.plan.policy.limit_pos)
  | exhausted hf hlen ha hp he => simp
  | unstarted hf hlen ha hs he => simp

theorem Round.ne_nil {job : Job} {as : List Attempt} {result : Except CampaignError Bool}
    (h : Round job as result) : as ≠ [] := by
  cases h with
  | skipped h => exact h.ne_nil
  | ungenerated h => exact h.ne_nil
  | executed h hs => exact List.append_ne_nil_of_left_ne_nil h.ne_nil _
  | broken h hs => exact List.append_ne_nil_of_left_ne_nil h.ne_nil _

end CompilerFuzz.Campaign
