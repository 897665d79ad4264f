/-
  CompilerFuzz.Proofs.Campaign.Retrying

  How often the generator is called in one step, and how the step ends.

    * `Runs` follows the calls of the generator from one world to another, call by call, with
      the exit of each.
    * `Tries` lists the four ways in which a generator step ends. A step ends in one of them, and
      whenever the exits are as one of them says, the step ends that way (`generate_eq_iff_tries`).
      The one half runs through the failed calls (`generateWithin_of_runs`), the other finds the
      calls that are made (`exists_runs`), by induction on the limit.
    * `generateCounted` is the step with its attempts counted in a word of 32 bits. The count
      stays below the limit of the policy, so it never leaves the word.
-/
import CompilerFuzz.Proofs.Campaign.StepGrammar

namespace CompilerFuzz.Campaign

open CompilerFuzz.Text

/-! ## Calls of the generator, one after the other -/

/-- The generator is started and ends with the given exit, and this is all that is noted. -/
def Ends (env : Environment) (job : Job) (w : World) (exit : Exit) (w' : World) : Prop :=
  invoke env job.generation w = (.ok (.ofExit job.generation exit), w') ∧
    w.Made [⟨job.generation, .ended exit⟩] w'

/-- Calls of the generator, each of them started, with their exits from the first to the last. -/
inductive Runs (env : Environment) (job : Job) (w : World) : List Exit → World → Prop
  | nil : Runs env job w [] w
  | concat {exits w' exit w''} (h : Runs env job w exits w') (hcall : Ends env job w' exit w'') :
      Runs env job w (exits ++ [exit]) w''

/-- None of the calls gave a program. -/
def AllFailed (exits : List Exit) : Prop := ∀ exit ∈ exits, exit.status ≠ some 0

theorem allFailed_concat_iff {exits : List Exit} {exit : Exit} :
    AllFailed (exits ++ [exit]) ↔ AllFailed exits ∧ exit.status ≠ some 0 := by
  unfold AllFailed
  rw [List.forall_mem_append, List.forall_mem_singleton]

section Calls

variable {env : Environment} {job : Job} {w w' : World} {exits : List Exit} {exit : Exit}

theorem success_ofExit_eq_true (call : Invocation) (h : exit.status = some 0) :
    (Outcome.ofExit call exit).success = true :=
  beq_iff_eq.2 h

theorem success_ofExit_eq_false (call : Invocation) (h : exit.status ≠ some 0) :
    (Outcome.ofExit call exit).success = false :=
  beq_eq_false_iff_ne.2 h

/-- A call of the generator is started and ends, or it is an attempt without a start. -/
theorem ends_or_unstarted (env : Environment) (job : Job) (w : World) :
    (∃ exit w', Ends env job w exit w') ∨ ∃ e w', invoke env job.generation w = (.error e, w') := by
  cases hi : invoke env job.generation w with
  | mk result w' =>
    cases result with
    | error e => exact .inr ⟨e, w', rfl⟩
    | ok o =>
      obtain ⟨files, exit, effect, -, -, rfl, rfl⟩ := invoke_eq_ok hi
      exact .inl ⟨exit, _, hi, [(⟨job.generation, .ended exit⟩, files)], rfl, rfl⟩

theorem exists_unstarted_of_error {e : CampaignError}
    (h : invoke env job.generation w = (.error e, w')) :
    ∃ a, w.Made [a] w' ∧ a.call = job.generation ∧ a.started = false ∧ a.Reported e := by
  obtain ⟨e', w₁, a, hi, hm, hc, hs, he⟩ | ⟨o, w₁, a, hi, -⟩ := invoke_cases env job.generation w
  · obtain ⟨hresult, rfl⟩ := Prod.mk.inj (h.symm.trans hi)
    cases hresult
    exact ⟨a, hm, hc, hs, he⟩
  · cases (Prod.mk.inj (h.symm.trans hi)).1

theorem Runs.made (h : Runs env job w exits w') :
    w.Made (exits.map fun exit => ⟨job.generation, .ended exit⟩) w' := by
  induction h with
  | nil => exact ⟨[], (List.append_nil _).symm, rfl⟩
  | concat _ hcall ih =>
    rw [List.map_append]
    exact ih.trans hcall.2

end Calls

/-! ## How a generator step ends -/

/-- The ways in which a generator step ends: with a program, no later than at the last attempt
    that the policy allows; without one when all of them have failed, which is no error under the
    policy to skip and the error of the last attempt otherwise; or with an attempt that could not
    be started. The failed attempts are counted, and nothing else. -/
inductive Tries (env : Environment) (job : Job) (w : World) : Stage Bool → Prop
  | succeeded {failed w' exit w''} (hruns : Runs env job w failed w') (hfailed : AllFailed failed)
      (hlimit : failed.length + 1 ≤ job.plan.policy.limit) (hcall : Ends env job w' exit w'')
      (hexit : exit.status = some 0) : Tries env job w ⟨.ok true, failed.length, w''⟩
  | skipped {failed w'} (hruns : Runs env job w failed w') (hfailed : AllFailed failed)
      (hlimit : failed.length = job.plan.policy.limit) (hp : job.plan.policy = .skip) :
      Tries env job w ⟨.ok false, failed.length, w'⟩
  | exhausted {failed w' last w''} (hruns : Runs env job w failed w') (hfailed : AllFailed failed)
      (hlimit : failed.length + 1 = job.plan.policy.limit) (hcall : Ends env job w' last w'')
      (hlast : last.status ≠ some 0) (hp : job.plan.policy ≠ .skip) :
      Tries env job w
        ⟨.error (.generator last.status (Outcome.stderrText last.stderr)), failed.length + 1, w''⟩
  | unstarted {failed w' e w''} (hruns : Runs env job w failed w') (hfailed : AllFailed failed)
      (hlimit : failed.length < job.plan.policy.limit)
      (hcall : invoke env job.generation w' = (.error e, w'')) :
      Tries env job w ⟨.error e, failed.length, w''⟩

section Steps

variable {env : Environment} {job : Job} {w w' : World} {failed : List Exit} {stage : Stage Bool}

/-- Failed calls use up attempts, and the step goes on behind them. -/
theorem generateWithin_of_runs {extra : Nat} (h : Runs env job w failed w')
    (hfailed : AllFailed failed) (hextra : failed.length ≤ extra) :
    generateWithin env job extra 0 w =
      generateWithin env job (extra - failed.length) failed.length w' := by
  induction h with
  | nil => rfl
  | @concat exits w' exit w'' _ hcall ih =>
    obtain ⟨hearlier, hexit⟩ := allFailed_concat_iff.1 hfailed
    have hfailure : (Outcome.ofExit job.generation exit).success = false :=
      success_ofExit_eq_false _ hexit
    rw [List.length_append, List.length_singleton] at hextra ⊢
    have hleft : extra - exits.length = extra - (exits.length + 1) + 1 := by omega
    rw [ih hearlier (by omega), hleft, generateWithin_succ_of_failure _ hcall.1 hfailure]

/-- The policy looks at the outcome of the last call alone. -/
theorem giveUp_ofExit {policy : Policy} (hp : policy ≠ .skip) (job : Job) (exit : Exit) :
    policy.giveUp (.ofExit job.generation exit) =
      .error (.generator exit.status (Outcome.stderrText exit.stderr)) := by
  cases policy with
  | skip => exact absurd rfl hp
  | abort => rfl
  | retry n => rfl

theorem Tries.generate_eq (h : Tries env job w stage) :
    generate env job w = stage := by
  have hpos := job.plan.policy.limit_pos
  unfold generate
  cases h with
  | succeeded hruns hfailed hlimit hcall hexit =>
    rw [generateWithin_of_runs hruns hfailed (by omega)]
    exact generateWithin_of_success _ hcall.1 (success_ofExit_eq_true _ hexit)
  | unstarted hruns hfailed hlimit hcall =>
    rw [generateWithin_of_runs hruns hfailed (by omega)]
    exact generateWithin_of_error _ hcall
  | @exhausted failed w' last w'' hruns hfailed hlimit hcall hlast hp =>
    have hnone : job.plan.policy.limit - 1 - failed.length = 0 := by omega
    rw [generateWithin_of_runs hruns hfailed (by omega), hnone,
      generateWithin_zero_of_failure hcall.1 (success_ofExit_eq_false _ hlast),
      giveUp_ofExit hp]
  | skipped hruns hfailed hlimit hp =>
    -- the one attempt that is allowed is the last of the failed ones
    cases hruns with
    | nil => exact absurd hlimit (Nat.ne_of_lt hpos)
    | @concat exits w₁ exit _ hruns hcall =>
      obtain ⟨hearlier, hexit⟩ := allFailed_concat_iff.1 hfailed
      have hfailure : (Outcome.ofExit job.generation exit).success = false :=
        success_ofExit_eq_false _ hexit
      rw [List.length_append, List.length_singleton] at hlimit ⊢
      have hnone : job.plan.policy.limit - 1 - exits.length = 0 := by omega
      rw [generateWithin_of_runs hruns hearlier (by omega), hnone,
        generateWithin_zero_of_failure hcall.1 hfailure, hp]
      rfl

/-- The calls that a step with `limit` attempts makes before the one that decides it: all of them
    fail, and they use up the attempts, or the next call is not started or gives a program. -/
theorem exists_runs (env : Environment) (job : Job) (w : World) (limit : Nat) :
    ∃ failed w', Runs env job w failed w' ∧ AllFailed failed ∧
      (failed.length = limit ∨ failed.length < limit ∧
        ((∃ exit w'', Ends env job w' exit w'' ∧ exit.status = some 0) ∨
          ∃ e w'', invoke env job.generation w' = (.error e, w''))) := by
  induction limit with
  | zero => exact ⟨[], w, .nil, List.forall_mem_nil _, .inl rfl⟩
  | succ limit ih =>
    obtain ⟨failed, w', hruns, hfailed, hlength | ⟨hlength, hnext⟩⟩ := ih
    · -- one more attempt is allowed than have failed so far
      have hshort : failed.length < limit + 1 := by omega
      obtain ⟨exit, w'', hcall⟩ | hunstarted := ends_or_unstarted env job w'
      · by_cases hexit : exit.status = some 0
        · exact ⟨failed, w', hruns, hfailed, .inr ⟨hshort, .inl ⟨exit, w'', hcall, hexit⟩⟩⟩
        · refine ⟨failed ++ [exit], w'', hruns.concat hcall,
            allFailed_concat_iff.2 ⟨hfailed, hexit⟩, .inl ?_⟩
          rw [List.length_append, List.length_singleton, hlength]
      · exact ⟨failed, w', hruns, hfailed, .inr ⟨hshort, .inr hunstarted⟩⟩
    · exact ⟨failed, w', hruns, hfailed, .inr ⟨by omega, hnext⟩⟩

theorem exists_tries (env : Environment) (job : Job) (w : World) :
    ∃ stage, Tries env job w stage := by
  obtain ⟨failed, w', hruns, hfailed, hlength | ⟨hlength, hnext⟩⟩ :=
    exists_runs env job w job.plan.policy.limit
  · by_cases hp : job.plan.policy = .skip
    · exact ⟨_, .skipped hruns hfailed hlength hp⟩
    · -- the attempts are used up, and the last one tells the error
      cases hruns with
      | nil => exact absurd hlength (Nat.ne_of_lt job.plan.policy.limit_pos)
      | concat hruns hcall =>
        obtain ⟨hearlier, hexit⟩ := allFailed_concat_iff.1 hfailed
        rw [List.length_append, List.length_singleton] at hlength
        exact ⟨_, .exhausted hruns hearlier hlength hcall hexit hp⟩
  · obtain ⟨exit, w'', hcall, hexit⟩ | ⟨e, w'', hcall⟩ := hnext
    · exact ⟨_, .succeeded hruns hfailed hlength hcall hexit⟩
    · exact ⟨_, .unstarted hruns hfailed hlength hcall⟩

theorem generate_eq_iff_tries : generate env job w = stage ↔ Tries env job w stage := by
  constructor
  · rintro rfl
    obtain ⟨stage, hstage⟩ := exists_tries env job w
    rw [hstage.generate_eq]
    exact hstage
  · exact Tries.generate_eq

/-- An iteration whose generator step gives no program is that step. -/
theorem iterate_of_no_program (h : (generate env job w).result ≠ .ok true) :
    iterate env job w = generate env job w := by
  unfold iterate
  generalize generate env job w = g at *
  obtain ⟨result, failures, w'⟩ := g
  cases result with
  | error e => rfl
  | ok program =>
    cases program with
    | false => rfl
    | true => exact absurd rfl h

end Steps

/-! ## Attempts counted in a word -/

/-- How many attempts a policy allows, as a word of 32 bits: one more than the extra ones, or the
    largest word. -/
def Policy.attempts : Policy → UInt32
  | .abort | .skip => 1
  | .retry n => if n.toNat < maxWord32 then n + 1 else n

/-- The generator step with its attempts counted in a word of 32 bits; `none` as soon as one more
    attempt cannot be counted. -/
def generateCounted (env : Environment) (job : Job) (attempts attempt : UInt32) (failures : Nat)
    (w : World) : Option (Stage Bool) :=
  if attempt.toNat < maxWord32 then
    match invoke env job.generation w with
    | (.error e, w) => some ⟨.error e, failures, w⟩
    | (.ok o, w) =>
      if o.success then some ⟨.ok true, failures, w⟩
      else if attempts ≤ attempt + 1 then some ⟨job.plan.policy.giveUp o, failures + 1, w⟩
      else generateCounted env job attempts (attempt + 1) (failures + 1) w
  else none
termination_by maxWord32 - attempt.toNat
decreasing_by
  rw [UInt32.toNat_add, UInt32.toNat_one]
  unfold maxWord32 at *
  omega

theorem toNat_add_one {n : UInt32} (h : n.toNat < maxWord32) : (n + 1).toNat = n.toNat + 1 := by
  rw [UInt32.toNat_add, UInt32.toNat_one]
  unfold maxWord32 at h
  omega

theorem lt_maxWord32_of_lt {n m : UInt32} (h : n.toNat < m.toNat) : n.toNat < maxWord32 := by
  have := m.toNat_lt
  unfold maxWord32
  omega

theorem Policy.toNat_attempts (p : Policy) : p.attempts.toNat = p.limit := by
  cases p with
  | abort => rfl
  | skip => rfl
  | retry n =>
    show (if n.toNat < maxWord32 then n + 1 else n).toNat = min (n.toNat + 1) maxWord32
    split
    · next h =>
      rw [toNat_add_one h]
      omega
    · have := n.toNat_lt
      unfold maxWord32 at *
      omega

section Counted

variable {env : Environment} {job : Job} {attempts attempt : UInt32} {failures : Nat}
  {w w' : World}

theorem generateCounted_of_error {e : CampaignError} (hword : attempt.toNat < maxWord32)
    (h : invoke env job.generation w = (.error e, w')) :
    generateCounted env job attempts attempt failures w = some ⟨.error e, failures, w'⟩ := by
  unfold generateCounted
  rw [if_pos hword, h]

theorem generateCounted_of_success {o : Outcome} (hword : attempt.toNat < maxWord32)
    (h : invoke env job.generation w = (.ok o, w')) (ho : o.success = true) :
    generateCounted env job attempts attempt failures w = some ⟨.ok true, failures, w'⟩ := by
  unfold generateCounted
  rw [if_pos hword, h]
  exact if_pos ho

theorem generateCounted_of_failure {o : Outcome} (hword : attempt.toNat < maxWord32)
    (h : invoke env job.generation w = (.ok o, w')) (ho : o.success = false) :
    generateCounted env job attempts attempt failures w =
      if attempts ≤ attempt + 1 then some ⟨job.plan.policy.giveUp o, failures + 1, w'⟩
      else generateCounted env job attempts (attempt + 1) (failures + 1) w' := by
  conv => lhs; unfold generateCounted
  rw [if_pos hword, h]
  exact if_neg (Bool.eq_false_iff.1 ho)

/-- The attempts that are left are counted within the word. -/
theorem generateCounted_eq_some {attempt : UInt32} (extra : Nat) {failures : Nat} {w : World}
    (hleft : attempt.toNat + extra + 1 = attempts.toNat) :
    generateCounted env job attempts attempt failures w =
      some (generateWithin env job extra failures w) := by
  have hless : attempt.toNat < attempts.toNat := by omega
  have hword : attempt.toNat < maxWord32 := lt_maxWord32_of_lt hless
  have hnext : (attempt + 1).toNat = attempt.toNat + 1 := toNat_add_one hword
  cases hi : invoke env job.generation w with
  | mk result w' =>
    cases result with
    | error e => rw [generateCounted_of_error hword hi, generateWithin_of_error _ hi]
    | ok o =>
      cases ho : o.success with
      | true => rw [generateCounted_of_success hword hi ho, generateWithin_of_success _ hi ho]
      | false =>
        -- the counter has come to the limit exactly if no extra run is left
        have hlast : attempts ≤ attempt + 1 ↔ extra = 0 := by
          rw [UInt32.le_iff_toNat_le, hnext]
          omega
        rw [generateCounted_of_failure hword hi ho]
        cases extra with
        | zero => rw [if_pos (hlast.2 rfl), generateWithin_zero_of_failure hi ho]
        | succ extra =>
          rw [if_neg fun h => Nat.succ_ne_zero extra (hlast.1 h),
            generateWithin_succ_of_failure _ hi ho]
          have hrest : (attempt + 1).toNat + extra + 1 = attempts.toNat := by
            rw [hnext, ← hleft]
            omega
          exact generateCounted_eq_some extra hrest

end Counted

/-- Whatever the generator does, a generator step ends in one of the ways that `Tries` lists, and
    it ends in that way whenever the exits of the generator are as it says. Its calls are noted
    one by one, with their exits; an attempt that is not started is noted as well, and reported as
    the error that it is. An iteration whose generator step gives no program ends with that step.
    The attempts that the policy allows are a word of 32 bits, and counting them never leaves the
    word. -/
theorem generate_tries (env : Environment) (job : Job) (w : World) :
    (∀ stage, generate env job w = stage ↔ Tries env job w stage) ∧
    (∀ exits w', Runs env job w exits w' →
      w.Made (exits.map fun exit => ⟨job.generation, .ended exit⟩) w') ∧
    (∀ w' e w'', invoke env job.generation w' = (.error e, w'') →
      ∃ a, w'.Made [a] w'' ∧ a.call = job.generation ∧ a.started = false ∧ a.Reported e) ∧
    ((generate env job w).result ≠ .ok true → iterate env job w = generate env job w) ∧
    job.plan.policy.attempts.toNat = job.plan.policy.limit ∧
    generateCounted env job job.plan.policy.attempts 0 0 w = some (generate env job w) := by
  have hcount : (0 : UInt32).toNat + (job.plan.policy.limit - 1) + 1 =
      job.plan.policy.attempts.toNat := by
    rw [Policy.toNat_attempts, UInt32.toNat_zero]
    have := job.plan.policy.limit_pos
    omega
  exact ⟨fun _ => generate_eq_iff_tries, fun _ _ h => h.made, fun _ _ _ h =>
    exists_unstarted_of_error h, iterate_of_no_program, Policy.toNat_attempts _,
    generateCounted_eq_some _ hcount⟩

/-- A generator that fails with another status and another message every time. -/
def failing : Environment where
  respond h _ _ :=
    .ran (if h.attempts.isEmpty then ⟨some 1, [], [97]⟩ else ⟨some 2, [], [98]⟩) id
  elapsed _ := .zero
  latency _ := .zero
  stop _ := false

/-- With one extra attempt the generator is called twice, and the error is that of the second
    call. -/
theorem tries_of_failing_generator :
    let w : World := ⟨⟨[]⟩, []⟩
    ∃ w', Runs failing retrying w [⟨some 1, [], [97]⟩, ⟨some 2, [], [98]⟩] w' ∧
      w.Made [⟨retrying.generation, .ended ⟨some 1, [], [97]⟩⟩,
        ⟨retrying.generation, .ended ⟨some 2, [], [98]⟩⟩] w' ∧
      generate failing retrying w = ⟨.error (.generator (some 2) "b"), 2, w'⟩ := by
  intro w
  have hfirst : Ends failing retrying w ⟨some 1, [], [97]⟩
      (invoke failing retrying.generation w).2 := by
    refine ⟨by rfl, [(⟨retrying.generation, .ended ⟨some 1, [], [97]⟩⟩, _)], rfl, rfl⟩
  have hsecond : Ends failing retrying (invoke failing retrying.generation w).2
      ⟨some 2, [], [98]⟩
      (invoke failing retrying.generation (invoke failing retrying.generation w).2).2 := by
    refine ⟨by rfl, [(⟨retrying.generation, .ended ⟨some 2, [], [98]⟩⟩, _)], rfl, rfl⟩
  have hfailed : AllFailed [⟨some 1, [], [97]⟩] := List.forall_mem_singleton.2 (by decide)
  have htext : Outcome.stderrText [98] = "b" := by decide +kernel
  obtain ⟨hsteps, hcalls, -⟩ := generate_tries failing retrying w
  have hone := Runs.nil.concat hfirst
  have htwo := hone.concat hsecond
  have hends := (hsteps _).2 (.exhausted hone hfailed rfl hsecond (by decide) (by decide))
  rw [htext] at hends
  exact ⟨_, htwo, hcalls _ _ htwo, hends⟩

end CompilerFuzz.Campaign
