/-
  CompilerFuzz.Proofs.Campaign.Interruption

  Interruption and abortion. A run ends in one of three ways: its budget is spent, it finds
  the stop flag set between two iterations, or an attempt of an iteration ends the campaign
  (`Breaks`), which is when the iteration has an error (`Iterates.result_eq_error_iff`). In
  the last case the flag decides, as it is when the error comes back: set, the run was
  interrupted; unset, it is aborted. `turn_eq_finished_iff` lists the three ways, and the
  result of a run follows from the way it took.
-/
import CompilerFuzz.Proofs.Campaign.Accounting
import CompilerFuzz.Proofs.Campaign.Lifecycle

namespace CompilerFuzz.Campaign

open CompilerFuzz.Files

/-! ## Iterations -/

/-- An iteration begins at the pause, makes the attempts `as`, and leaves the world `w`. -/
structure Iterates (env : Environment) (job : Job) (p : Pause) (as : List Attempt) (w : World) :
    Prop where
  inBudget : p.elapsed < job.plan.budget
  unset : env.stop p.world.history = false
  made : (p.world.log (.stopCheck false)).Made as w
  leaves : (iterate env job (p.world.log (.stopCheck false))).world = w

/-- One of the attempts of the iteration that begins at the pause ends the campaign. It is
    reported as the error `e`, which comes back in the world `w`. -/
def Breaks (env : Environment) (job : Job) (p : Pause) (e : CampaignError) (w : World) : Prop :=
  ∃ as, Iterates env job p as w ∧ ∃ n a, as[n]? = some a ∧ job.Ends n a ∧ a.Reported e

section Iterations

variable {env : Environment} {job : Job} {p : Pause} {as : List Attempt} {w : World}

theorem exists_iterates (job : Job) {p : Pause} (h : p.elapsed < job.plan.budget)
    (hs : env.stop p.world.history = false) :
    ∃ as, Iterates env job p as (iterate env job (p.world.log (.stopCheck false))).world := by
  obtain ⟨as, hm, -⟩ := iterate_made env job (p.world.log (.stopCheck false))
  exact ⟨as, h, hs, hm, rfl⟩

theorem Iterates.round (h : Iterates env job p as w) :
    Round job as (iterate env job (p.world.log (.stopCheck false))).result := by
  obtain ⟨bs, hm, hr, -⟩ := iterate_made env job (p.world.log (.stopCheck false))
  rw [h.leaves] at hm
  rwa [h.made.unique hm]

/-- An iteration ends with an error exactly if one of its attempts ends the campaign. -/
theorem Iterates.result_eq_error_iff (h : Iterates env job p as w) (e : CampaignError) :
    (iterate env job (p.world.log (.stopCheck false))).result = .error e ↔
      Breaks env job p e w := by
  rw [h.round.eq_error_iff e]
  refine ⟨fun hends => ⟨as, h, hends⟩, ?_⟩
  rintro ⟨bs, h', hends⟩
  rwa [h.made.unique h'.made]

/-- An attempt that ends the campaign has an error to report, and the iteration ends with it. -/
theorem Iterates.breaks_of_ends (h : Iterates env job p as w) {n : Nat} {a : Attempt}
    (hn : as[n]? = some a) (hends : job.Ends n a) : ∃ e, a.Reported e ∧ Breaks env job p e w := by
  have hround := h.round
  cases hresult : (iterate env job (p.world.log (.stopCheck false))).result with
  | ok executed =>
    rw [hresult] at hround
    exact absurd hends (hround.quiet n a hn)
  | error e =>
    have hbreaks : Breaks env job p e w := (h.result_eq_error_iff e).1 hresult
    rw [hresult] at hround
    obtain ⟨m, b, hm, hb, hreported⟩ := (hround.eq_error_iff e).1 rfl
    -- both attempts are the last one of the iteration
    have hn' := hround.endsWith.eq_last hn hends
    have hm' := hround.endsWith.eq_last hm hb
    obtain rfl : n = m := by omega
    obtain rfl : a = b := Option.some.inj (hn.symm.trans hm)
    exact ⟨e, hreported, hbreaks⟩

theorem Breaks.inBudget {e : CampaignError} (h : Breaks env job p e w) :
    p.elapsed < job.plan.budget := by
  obtain ⟨_, h, -⟩ := h
  exact h.inBudget

theorem Breaks.unset {e : CampaignError} (h : Breaks env job p e w) :
    env.stop p.world.history = false := by
  obtain ⟨_, h, -⟩ := h
  exact h.unset

theorem Breaks.result_eq {e : CampaignError} (h : Breaks env job p e w) :
    (iterate env job (p.world.log (.stopCheck false))).result = .error e := by
  obtain ⟨_, hi, -⟩ := id h
  exact (hi.result_eq_error_iff e).2 h

theorem Breaks.world_eq {e : CampaignError} (h : Breaks env job p e w) :
    (iterate env job (p.world.log (.stopCheck false))).world = w := by
  obtain ⟨_, h, -⟩ := h
  exact h.leaves

/-- The error of an iteration is that of its last attempt. -/
theorem Breaks.endsWith {e : CampaignError} (h : Breaks env job p e w) :
    ∃ as, (p.world.log (.stopCheck false)).Made as w ∧ job.EndsWith as e := by
  obtain ⟨as, hi, -⟩ := id h
  have hround := hi.round
  rw [h.result_eq] at hround
  exact ⟨as, hi.made, hround.endsWith⟩

/-- The attempts of an iteration went as the system answered. -/
theorem Iterates.answered {files : Tree} (hp : Reached env job files p)
    (h : Iterates env job p as w) : w.history.Answered env := by
  have hchecked : History.Answered env (p.world.log (.stopCheck false)).history :=
    hp.answered.concat (.silent rfl)
  rw [← h.leaves]
  exact (kept_answered env job).steady.iterate _ hchecked

end Iterations

/-! ## The end of a run -/

/-- What an error makes of a run, given whether a stop is requested when it comes back. -/
def Ending.ofError (stop : Bool) (e : CampaignError) : Ending :=
  if stop then .interrupted else .failed e

/-- The ways in which a run ends. -/
inductive Parting (env : Environment) (job : Job) (p : Pause) : Course → Prop
  | spent (h : ¬ p.elapsed < job.plan.budget) :
      Parting env job p ⟨.spent, p.tally, p.world⟩
  | stopped (h : p.elapsed < job.plan.budget) (hs : env.stop p.world.history = true) :
      Parting env job p ⟨.interrupted, p.tally, p.world.log (.stopCheck true)⟩
  | broken {e w} (h : Breaks env job p e w) :
      Parting env job p ⟨.ofError (env.stop w.history) e,
        p.tally.fail (iterate env job (p.world.log (.stopCheck false))).failures,
        w.log (.stopCheck (env.stop w.history))⟩

section Turn

variable {env : Environment} {job : Job} {p : Pause} {c : Course}

/-- A turn ends the run exactly in one of the ways in which runs end. -/
theorem turn_eq_finished_iff : turn env job p = .finished c ↔ Parting env job p c := by
  constructor
  · intro hturn
    by_cases h : p.elapsed < job.plan.budget
    · cases hs : env.stop p.world.history with
      | true =>
        rw [turn_of_stopped h hs] at hturn
        cases hturn
        exact .stopped h hs
      | false =>
        rw [turn_of_unset h hs] at hturn
        cases hresult : (iterate env job (p.world.log (.stopCheck false))).result with
        | ok executed =>
          rw [settle_of_ok hresult] at hturn
          cases hturn
        | error e =>
          rw [settle_of_error hresult] at hturn
          cases hturn
          obtain ⟨as, hiterates⟩ := exists_iterates job h hs
          exact .broken ((hiterates.result_eq_error_iff e).1 hresult)
    · rw [turn_of_spent h] at hturn
      cases hturn
      exact .spent h
  · intro hparting
    cases hparting with
    | spent h => exact turn_of_spent h
    | stopped h hs => exact turn_of_stopped h hs
    | broken h =>
      obtain rfl := h.world_eq
      rw [turn_of_unset h.inBudget h.unset]
      exact settle_of_error h.result_eq

end Turn

/-! ## Results of a run -/

section Results

variable {env : Environment} {job : Job} {files : Tree}

/-- A run that comes to its end at a pause returns. -/
theorem Parting.returns {p : Pause} {c : Course} (hp : Reached env job files p)
    (hc : Parting env job p c) :
    Returns env job files (c.result (env.elapsed c.world.history) c.ending.state)
      (c.closed env job) :=
  (Complete.finished hp (turn_eq_finished_iff.2 hc)).returns

/-- A run whose directory can be made has come to its end at a pause. -/
theorem Returns.parting (hprepared : job.Prepared files) {result : RunResult} {s : Session}
    (h : Returns env job files result s) :
    ∃ p c, Reached env job files p ∧ Parting env job p c ∧
      result = c.result (env.elapsed c.world.history) c.ending.state ∧ s = c.closed env job := by
  obtain ⟨_, hrun⟩ := h
  obtain ⟨c, hcomplete, hresult, hs⟩ := run_start_closed hrun
  cases hcomplete with
  | unprepared hprepare => exact absurd hprepared (not_prepared_of_error hprepare)
  | finished hp hturn => exact ⟨_, c, hp, turn_eq_finished_iff.1 hturn, hresult, hs⟩

/-- The flag is found set: between two iterations, or when an error comes back. -/
inductive FoundSet (env : Environment) (job : Job) (p : Pause) : Prop
  | between (h : p.elapsed < job.plan.budget) (hs : env.stop p.world.history = true)
  | failing {e w} (h : Breaks env job p e w) (hs : env.stop w.history = true)

theorem Ending.ofError_eq_failed {stop : Bool} {e e' : CampaignError}
    (h : Ending.ofError stop e = .failed e') : stop = false ∧ e = e' := by
  cases stop with
  | true => cases h
  | false =>
    cases h
    exact ⟨rfl, rfl⟩

theorem Course.interrupted_iff {c : Course} {elapsed : Span} {state : Lifecycle}
    {summary : Summary} (h : c.result elapsed state = .ok summary) :
    summary.interrupted = true ↔ c.ending = .interrupted := by
  unfold Course.result at h
  cases hending : c.ending with
  | spent =>
    rw [hending] at h
    cases h
    exact ⟨nofun, nofun⟩
  | interrupted =>
    rw [hending] at h
    cases h
    exact ⟨fun _ => rfl, fun _ => rfl⟩
  | failed e =>
    rw [hending] at h
    cases h

/-- A run is interrupted exactly if it comes to its end with the flag found set. -/
theorem Parting.interrupted_iff {p : Pause} {c : Course} (hc : Parting env job p c) :
    c.ending = .interrupted ↔ FoundSet env job p := by
  cases hc with
  | spent h =>
    refine ⟨nofun, fun hfound => ?_⟩
    cases hfound with
    | between hbudget _ => exact absurd hbudget h
    | failing hbreaks _ => exact absurd hbreaks.inBudget h
  | stopped h hs => exact ⟨fun _ => .between h hs, fun _ => rfl⟩
  | @broken e w h =>
    constructor
    · intro hending
      cases hs : env.stop w.history with
      | true => exact .failing h hs
      | false =>
        rw [hs] at hending
        cases hending
    · intro hfound
      cases hfound with
      | between _ hs =>
        rw [h.unset] at hs
        cases hs
      | @failing e' w' h' hs =>
        -- one iteration starts at the pause, so both errors come back in the same world
        obtain rfl : w = w' := h.world_eq.symm.trans h'.world_eq
        rw [hs]
        rfl

/-- The summary of a run that was interrupted by an iteration which begins at the pause: it
    counts the iterations before that one. -/
structure Summary.InterruptedAfter (summary : Summary) (job : Job) (p : Pause) : Prop where
  interrupted : summary.interrupted = true
  state : summary.state = .completed
  executed : summary.executed = p.world.history.rounds.countP job.executes
  recorded : summary.latency.count = summary.executed
  latency : summary.latency = p.tally.latency

/-- An error comes back while a stop is requested: the run is interrupted, and the iteration
    that failed counts for nothing in its summary. -/
theorem Breaks.interrupts {p : Pause} (hp : Reached env job files p) {e : CampaignError}
    {w : World} (h : Breaks env job p e w) (hs : env.stop w.history = true) :
    ∃ summary s, Returns env job files (.ok summary) s ∧ s.state = .completed ∧
      summary.InterruptedAfter job p := by
  have hcounted : Counted job p := hp.counted
  have hreturns := (Parting.broken h).returns hp
  rw [hs] at hreturns
  exact ⟨_, _, hreturns, rfl, rfl, rfl, hcounted.executed, hcounted.recorded, rfl⟩

/-- An error comes back while no stop is requested: the run returns it. -/
theorem Breaks.aborts {p : Pause} (hp : Reached env job files p) {e : CampaignError}
    {w : World} (h : Breaks env job p e w) (hs : env.stop w.history = false) :
    ∃ s, Returns env job files (.error e) s := by
  have hreturns := (Parting.broken h).returns hp
  rw [hs] at hreturns
  exact ⟨_, hreturns⟩

/-- A run that returns an error has had an iteration that ended with it. -/
theorem Returns.exists_breaks (hprepared : job.Prepared files)
    {e : CampaignError} {s : Session} (h : Returns env job files (.error e) s) :
    ∃ p w, Reached env job files p ∧ Breaks env job p e w ∧ env.stop w.history = false := by
  obtain ⟨p, c, hp, hparting, hresult, -⟩ := h.parting hprepared
  have hending := Course.ending_of_result_eq_error hresult.symm
  -- of the ways in which a run ends only one fails
  cases hparting with
  | spent _ => cases hending
  | stopped _ _ => cases hending
  | broken hbreaks =>
    obtain ⟨hs, rfl⟩ := Ending.ofError_eq_failed hending
    exact ⟨p, _, hp, hbreaks, hs⟩

/-- A flag that is found set ends the run with a summary, and a run returns only once. -/
theorem Returns.interrupted_of_foundSet {summary : Summary} {s : Session}
    (h : Returns env job files (.ok summary) s) {p : Pause} (hp : Reached env job files p)
    (hfound : FoundSet env job p) : summary.interrupted = true := by
  cases hfound with
  | between hbudget hs =>
    obtain ⟨hsame, -⟩ := h.unique ((Parting.stopped hbudget hs).returns hp)
    cases hsame
    rfl
  | failing hbreaks hs =>
    obtain ⟨summary', s', h', -, hinterrupted⟩ := hbreaks.interrupts hp hs
    obtain ⟨hsame, -⟩ := h.unique h'
    cases hsame
    exact hinterrupted.interrupted

theorem Returns.interrupted_iff (hprepared : job.Prepared files)
    {summary : Summary} {s : Session} (h : Returns env job files (.ok summary) s) :
    summary.interrupted = true ↔ ∃ p, Reached env job files p ∧ FoundSet env job p := by
  constructor
  · intro hinterrupted
    obtain ⟨p, c, hp, hparting, hresult, -⟩ := h.parting hprepared
    exact ⟨p, hp, hparting.interrupted_iff.1 ((c.interrupted_iff hresult.symm).1 hinterrupted)⟩
  · rintro ⟨p, hp, hfound⟩
    exact h.interrupted_of_foundSet hp hfound

end Results

/-- How the first run of a campaign tells interruption and abortion apart. -/
structure ToldApart (env : Environment) (job : Job) (files : Tree) : Prop where
  /-- While the budget lasts and the flag is unset, an iteration follows. Its attempts go as
      the system answers, and are those of a round that ends with an error exactly if one of
      them ends the campaign. -/
  iterations : ∀ p, Reached env job files p → p.elapsed < job.plan.budget →
    env.stop p.world.history = false →
    ∃ as w result, Iterates env job p as w ∧ w.history.Answered env ∧ Round job as result ∧
      ∀ e, result = .error e ↔ Breaks env job p e w
  /-- A tool that was not started, a compiler or an optimizer without success, and a generator
      whose failure the policy does not absorb: each is reported, and the iteration ends with
      that error. -/
  fails : ∀ p as w, Reached env job files p → Iterates env job p as w → ∀ n a,
    as[n]? = some a → job.Ends n a → ∃ e, a.Reported e ∧ Breaks env job p e w
  /-- The error is that of the last attempt, and no attempt before it ends the campaign. -/
  blamed : ∀ p e w, Reached env job files p → Breaks env job p e w →
    ∃ as, (p.world.log (.stopCheck false)).Made as w ∧ job.EndsWith as e
  /-- The run returns an error exactly if an iteration ends with it while the flag is unset. -/
  error_iff : ∀ e, (∃ s, Returns env job files (.error e) s) ↔
    ∃ p w, Reached env job files p ∧ Breaks env job p e w ∧ env.stop w.history = false
  /-- With the flag set, the run returns a summary that leaves the iteration out. -/
  interrupts : ∀ p e w, Reached env job files p → Breaks env job p e w →
    env.stop w.history = true →
    ∃ summary s, Returns env job files (.ok summary) s ∧ s.state = .completed ∧
      summary.InterruptedAfter job p
  interrupted_iff : ∀ summary s, Returns env job files (.ok summary) s →
    (summary.interrupted = true ↔ ∃ p, Reached env job files p ∧ FoundSet env job p)
  /-- A budget that is found spent ends the run without an interruption, whatever the flag. -/
  spent : ∀ p, Reached env job files p → ¬ p.elapsed < job.plan.budget →
    ∃ summary s, Returns env job files (.ok summary) s ∧ summary.interrupted = false
  aborted_iff : ∀ result s, Returns env job files result s →
    (s.state = .aborted ↔ ∃ e, result = .error e)
  completed_iff : ∀ result s, Returns env job files result s →
    (s.state = .completed ↔ ∃ summary, result = .ok summary ∧ summary.state = .completed)

/-- Whatever the tools, the clock and the stop flag answer, the first run of a campaign whose
    directory can be made tells interruption and abortion apart. -/
theorem run_toldApart {env : Environment} {job : Job} {files : Tree}
    (hprepared : job.Prepared files) : ToldApart env job files where
  iterations p hp hbudget hunset := by
    obtain ⟨as, h⟩ := exists_iterates job hbudget hunset
    exact ⟨as, _, _, h, h.answered hp, h.round, h.result_eq_error_iff⟩
  fails p as w hp h n a := h.breaks_of_ends
  blamed p e w hp h := h.endsWith
  error_iff e := by
    refine ⟨fun ⟨s, h⟩ => h.exists_breaks hprepared, ?_⟩
    rintro ⟨p, w, hp, hbreaks, hs⟩
    exact hbreaks.aborts hp hs
  interrupts p e w hp h := h.interrupts hp
  interrupted_iff summary s h := h.interrupted_iff hprepared
  spent p hp h := ⟨_, _, (Parting.spent h).returns hp, rfl⟩
  aborted_iff result s h := by
    rw [h.state_eq]
    cases result with
    | ok summary => exact ⟨nofun, nofun⟩
    | error e => exact ⟨fun _ => ⟨e, rfl⟩, fun _ => rfl⟩
  completed_iff result s h := by
    rw [h.state_eq]
    cases result with
    | ok summary => exact ⟨fun _ => ⟨summary, rfl, h.completed⟩, fun _ => rfl⟩
    | error e => exact ⟨nofun, nofun⟩

/-- The optimizer fails on the second program: with the flag unset that aborts the run, with
    the flag set meanwhile it interrupts it. -/
theorem toldApart_of_failing_optimizer :
    retrying.Prepared ⟨[]⟩ ∧
    (∃ e p w, Reached (flaky fun _ => false) retrying ⟨[]⟩ p ∧
      Breaks (flaky fun _ => false) retrying p e w ∧ e = .toolchain .optimize (some 1) "") ∧
    ∃ p, Reached (flaky fun h => 7 ≤ h.attempts.length) retrying ⟨[]⟩ p ∧
      FoundSet (flaky fun h => 7 ≤ h.attempts.length) retrying p := by
  have hprepared : retrying.Prepared ⟨[]⟩ := by
    intro dir hdir
    have hparent : Path.parent? retrying.artifacts.source = some "" := by decide +kernel
    obtain rfl := Option.some.inj (hparent.symm.trans hdir)
    unfold Tree.makeDirectories
    exact congrArg Prod.snd (if_pos rfl)
  have haborted : (Session.run (flaky fun _ => false) 2 retrying (Session.start ⟨[]⟩)).any fun r =>
      match r.1 with
      | .ok _ => false
      | .error e => e == .toolchain .optimize (some 1) "" := by
    decide +kernel
  have hinterrupted : (Session.run (flaky fun h => 7 ≤ h.attempts.length) 2 retrying
      (Session.start ⟨[]⟩)).any fun r =>
      match r.1 with
      | .ok summary => summary.interrupted
      | .error _ => false := by
    decide +kernel
  refine ⟨hprepared, ?_, ?_⟩
  · obtain ⟨⟨result, s⟩, hs, he⟩ := (Option.any_eq_true _ _).1 haborted
    cases result with
    | ok summary => cases he
    | error e =>
      obtain ⟨p, w, hp, hbreaks, -⟩ := ((run_toldApart hprepared).error_iff e).1 ⟨s, 2, hs⟩
      exact ⟨e, p, w, hp, hbreaks, eq_of_beq he⟩
  · obtain ⟨⟨result, s⟩, hs, hsummary⟩ := (Option.any_eq_true _ _).1 hinterrupted
    cases result with
    | ok summary => exact ((run_toldApart hprepared).interrupted_iff summary s ⟨2, hs⟩).1 hsummary
    | error e => cases hsummary

end CompilerFuzz.Campaign
