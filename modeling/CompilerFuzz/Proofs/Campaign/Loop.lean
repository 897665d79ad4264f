/-
  CompilerFuzz.Proofs.Campaign.Loop

  The loop of a run. `Turned` lists what one turn can do. A pause is `Reached` if turns
  lead to it from the first one, which also covers a run that never ends; a finished run
  was closed at a course that is `Complete`, and every complete course is that of a run that
  `Returns`.
-/
import Mathlib.Logic.Relation
import CompilerFuzz.Campaign.Run
import CompilerFuzz.Proofs.Campaign.Round

namespace CompilerFuzz.Campaign

open CompilerFuzz.Files

/-! ## One turn -/

/-- The pause after a look at the clock and a progress report. -/
def Tally.pause (env : Environment) (tally : Tally) (w : World) : Pause :=
  ⟨(showProgress env tally.executed w).1, tally, (showProgress env tally.executed w).2⟩

/-- The tally after an iteration that ended with an error. -/
def Tally.fail (t : Tally) (failures : Nat) : Tally :=
  { t with generatorFailures := t.generatorFailures + failures }

/-- What one turn of the loop can do. -/
inductive Turned (env : Environment) (job : Job) (p : Pause) : Turn → Prop
  | spent (h : ¬ p.elapsed < job.plan.budget) :
      Turned env job p (.finished ⟨.spent, p.tally, p.world⟩)
  | stopped (h : p.elapsed < job.plan.budget) (hs : env.stop p.world.history = true) :
      Turned env job p (.finished ⟨.interrupted, p.tally, p.world.log (.stopCheck true)⟩)
  | next {as executed w} (h : p.elapsed < job.plan.budget)
      (hs : env.stop p.world.history = false)
      (hm : (p.world.log (.stopCheck false)).Made as w) (hr : Round job as (.ok executed)) :
      Turned env job p (.next ((p.tally.count executed (as.countP Attempt.isFailedGeneration)
        (env.latency w.history)).pause env w))
  | broken {as e w} (h : p.elapsed < job.plan.budget) (hs : env.stop p.world.history = false)
      (hm : (p.world.log (.stopCheck false)).Made as w) (hr : Round job as (.error e)) :
      Turned env job p (.finished ⟨if env.stop w.history then .interrupted else .failed e,
        p.tally.fail (as.countP Attempt.isFailedGeneration),
        w.log (.stopCheck (env.stop w.history))⟩)

section Turn

variable {env : Environment} {job : Job} {p : Pause}

theorem turn_of_spent (h : ¬ p.elapsed < job.plan.budget) :
    turn env job p = .finished ⟨.spent, p.tally, p.world⟩ := if_pos h

theorem turn_of_stopped (h : p.elapsed < job.plan.budget) (hs : env.stop p.world.history = true) :
    turn env job p = .finished ⟨.interrupted, p.tally, p.world.log (.stopCheck true)⟩ := by
  unfold turn checkStop
  rw [if_neg (not_not_intro h), hs]

theorem turn_of_unset (h : p.elapsed < job.plan.budget) (hs : env.stop p.world.history = false) :
    turn env job p =
      settle env p.tally (iterate env job (p.world.log (.stopCheck false))) := by
  unfold turn checkStop
  rw [if_neg (not_not_intro h), hs]

theorem settle_of_error {tally : Tally} {stage : Stage Bool} {e : CampaignError}
    (h : stage.result = .error e) :
    settle env tally stage =
      .finished ⟨if env.stop stage.world.history then .interrupted else .failed e,
        tally.fail stage.failures, stage.world.log (.stopCheck (env.stop stage.world.history))⟩ := by
  unfold settle checkStop
  rw [h]
  cases env.stop stage.world.history <;> rfl

theorem settle_of_ok {tally : Tally} {stage : Stage Bool} {executed : Bool}
    (h : stage.result = .ok executed) :
    settle env tally stage =
      .next ((tally.count executed stage.failures (env.latency stage.world.history)).pause env
        stage.world) := by
  unfold settle
  rw [h]
  rfl

end Turn

theorem turn_turned (env : Environment) (job : Job) (p : Pause) :
    Turned env job p (turn env job p) := by
  by_cases h : p.elapsed < job.plan.budget
  · cases hs : env.stop p.world.history with
    | true =>
      rw [turn_of_stopped h hs]
      exact .stopped h hs
    | false =>
      rw [turn_of_unset h hs]
      -- the iteration is a round in the world that has just looked at the stop flag
      obtain ⟨as, hm, hr, hcount⟩ := iterate_made env job (p.world.log (.stopCheck false))
      cases hresult : (iterate env job (p.world.log (.stopCheck false))).result with
      | ok executed =>
        rw [settle_of_ok hresult, hcount]
        exact .next h hs hm (hresult ▸ hr)
      | error e =>
        rw [settle_of_error hresult, hcount]
        exact .broken h hs hm (hresult ▸ hr)
  · rw [turn_of_spent h]
    exact .spent h

theorem Turned.of_eq {env : Environment} {job : Job} {p : Pause} {t : Turn}
    (h : turn env job p = t) : Turned env job p t := h ▸ turn_turned env job p

/-- A turn that leads on is an iteration that ended without an error. -/
theorem next_cases {env : Environment} {job : Job} {p q : Pause} (h : turn env job p = .next q) :
    ∃ as executed latency, Round job as (.ok executed) ∧
      q.tally = p.tally.count executed (as.countP Attempt.isFailedGeneration) latency ∧
      q.world.history.rounds = p.world.history.rounds ++ [as] ∧
      q.world.history.beats =
        p.world.history.beats ++ as.map .attempt ++ [.update q.tally.executed] := by
  cases Turned.of_eq h with
  | @next as executed w _ _ hm hr =>
    refine ⟨as, executed, env.latency w.history, hr, rfl, ?_, ?_⟩
    · -- the look before the iteration opens it, and the notes after it belong to none
      rw [← hm.rounds_eq hr.ne_nil]
      show History.rounds ((w.history ++ [_]) ++ [_]) = _
      rw [List.append_assoc]
      exact History.rounds_append_of_groups_eq _ rfl
    · show History.beats ((w.history ++ [_]) ++ [_]) = _
      rw [List.append_assoc, History.beats_append, hm.beats_eq]
      show History.beats (p.world.history ++ [_]) ++ _ ++ _ = _
      rw [History.beats_append]
      show (p.world.history.beats ++ []) ++ _ ++ _ = _
      rw [List.append_nil]
      rfl

/-- The iterations of the last turn, and how the run ended: the turn made none, or one that
    ended with an error. -/
inductive Closing (job : Job) : List (List Attempt) → Ending → Prop
  | none {ending} (h : ∀ e, ending ≠ .failed e) : Closing job [] ending
  | broken {as e ending} (hr : Round job as (.error e))
      (h : ending = .interrupted ∨ ending = .failed e) : Closing job [as] ending

theorem finished_cases {env : Environment} {job : Job} {p : Pause} {c : Course}
    (h : turn env job p = .finished c) :
    ∃ broken : List (List Attempt), Closing job broken c.ending ∧
      c.tally = p.tally.fail (broken.flatten.countP Attempt.isFailedGeneration) ∧
      c.world.history.rounds = p.world.history.rounds ++ broken ∧
      c.world.history.beats = p.world.history.beats ++ broken.flatten.map .attempt := by
  cases Turned.of_eq h with
  | spent _ =>
    refine ⟨[], .none nofun, rfl, ?_, ?_⟩
    · rw [List.append_nil]
    · exact (List.append_nil _).symm
  | stopped _ _ =>
    refine ⟨[], .none nofun, rfl, ?_, ?_⟩
    · exact (History.rounds_concat_stopCheck _ true).trans (List.append_nil _).symm
    · exact History.beats_append _ _
  -- the iteration that failed is not told to the progress, its attempts are
  | @broken as e w _ _ hm hr =>
    refine ⟨[as], .broken hr ?_, ?_, ?_, ?_⟩
    · dsimp only
      split
      · exact .inl rfl
      · exact .inr rfl
    · rw [List.flatten_singleton]
    · rw [← hm.rounds_eq hr.ne_nil]
      exact History.rounds_concat_stopCheck _ _
    · show History.beats (w.history ++ [_]) = _
      rw [History.beats_append, hm.beats_eq]
      show History.beats (p.world.history ++ [_]) ++ _ ++ [] = _
      rw [History.beats_append, List.append_nil, List.flatten_singleton]
      show (p.world.history.beats ++ []) ++ _ = _
      rw [List.append_nil]

/-! ## The pauses of a run -/

/-- The directory for the source file can be made, if its path has one. -/
def Job.Prepared (job : Job) (files : Tree) : Prop :=
  ∀ dir, Path.parent? job.artifacts.source = some dir → (files.makeDirectories dir).2 = .ok ()

theorem prepare_eq_ok_iff (job : Job) (w : World) :
    (prepare job w).1 = .ok () ↔ job.Prepared w.files := by
  unfold prepare Job.Prepared
  cases Path.parent? job.artifacts.source with
  | none => exact ⟨fun _ => nofun, fun _ => rfl⟩
  | some dir =>
    have hone : (∀ d, some dir = some d → (w.files.makeDirectories d).2 = .ok ()) ↔
        (w.files.makeDirectories dir).2 = .ok () := by simp
    rw [hone]
    dsimp only
    generalize w.files.makeDirectories dir = made
    obtain ⟨files, result⟩ := made
    cases result with
    | ok u => exact ⟨fun _ => rfl, fun _ => rfl⟩
    | error cause => exact ⟨nofun, nofun⟩

/-- A pause that a campaign on the given files comes to. -/
def Reached (env : Environment) (job : Job) (files : Tree) (p : Pause) : Prop :=
  ∃ w, prepare job ⟨files, []⟩ = (.ok (), w) ∧
    Relation.ReflTransGen (fun p q => turn env job p = .next q) (firstPause env w) p

theorem prepare_history (job : Job) (w : World) : (prepare job w).2.history = w.history := by
  unfold prepare
  split
  · rfl
  · split <;> rfl

theorem firstPause_rounds {env : Environment} {w : World} (hw : w.history = []) :
    (firstPause env w).world.history.rounds = [] := by
  show History.rounds ((w.history ++ [_]) ++ [_]) = []
  rw [hw]
  rfl

theorem firstPause_beats {env : Environment} {w : World} (hw : w.history = []) :
    (firstPause env w).world.history.beats = [.update 0] := by
  show History.beats ((w.history ++ [_]) ++ [_]) = _
  rw [hw]
  rfl

theorem Reached.next {env : Environment} {job : Job} {files : Tree} {p q : Pause}
    (hp : Reached env job files p) (h : turn env job p = .next q) : Reached env job files q := by
  obtain ⟨w, hw, hsteps⟩ := hp
  exact ⟨w, hw, hsteps.tail h⟩

/-- What holds before the first iteration and is kept by every turn holds at every pause. -/
theorem Reached.invariant {env : Environment} {job : Job} {files : Tree} {P : Pause → Prop}
    (hfirst : ∀ w, w.history = [] → P (firstPause env w))
    (hnext : ∀ p q, P p → turn env job p = .next q → P q)
    {p : Pause} (h : Reached env job files p) : P p := by
  obtain ⟨w, hw, hsteps⟩ := h
  induction hsteps with
  | refl =>
    have hnil : (prepare job ⟨files, []⟩).2.history = [] := prepare_history job _
    rw [hw] at hnil
    exact hfirst w hnil
  | tail _ hturn ih => exact hnext _ _ ih hturn

/-- Every iteration up to a pause has ended without an error. -/
theorem Reached.round_ok {env : Environment} {job : Job} {files : Tree} {p : Pause}
    (h : Reached env job files p) :
    ∀ as ∈ p.world.history.rounds, ∃ executed, Round job as (.ok executed) := by
  refine h.invariant (P := fun p => ∀ as ∈ p.world.history.rounds, ∃ b, Round job as (.ok b))
    ?_ ?_
  · intro w hw
    rw [firstPause_rounds hw]
    exact List.forall_mem_nil _
  · intro p q hp hturn
    obtain ⟨as, executed, _, hround, -, hrounds, -⟩ := next_cases hturn
    rw [hrounds, List.forall_mem_append, List.forall_mem_singleton]
    exact ⟨hp, executed, hround⟩

theorem turns_eq_some {env : Environment} {job : Job} {fuel : Nat} {p : Pause} {c : Course}
    (h : turns env job fuel p = some c) :
    ∃ q, Relation.ReflTransGen (fun p q => turn env job p = .next q) p q ∧
      turn env job q = .finished c := by
  induction fuel generalizing p with
  | zero => cases h
  | succ fuel ih =>
    rw [turns_succ] at h
    cases hturn : turn env job p with
    | next p' =>
      rw [hturn] at h
      obtain ⟨q, hsteps, hfinished⟩ := ih h
      exact ⟨q, .head hturn hsteps, hfinished⟩
    | finished c' =>
      rw [hturn] at h
      cases h
      exact ⟨p, .refl, hturn⟩

/-! ## Finished runs -/

/-- If the directory of the source file cannot be made, nothing has happened yet. -/
theorem prepare_error {job : Job} {files : Tree} {w : World} {e : CampaignError}
    (h : prepare job ⟨files, []⟩ = (.error e, w)) :
    w.history = [] ∧
    ∃ dir cause, Path.parent? job.artifacts.source = some dir ∧
      (files.makeDirectories dir).2 = .error cause ∧ e = .io dir cause := by
  have hhistory : (prepare job ⟨files, []⟩).2.history = [] := prepare_history job _
  rw [h] at hhistory
  refine ⟨hhistory, ?_⟩
  unfold prepare at h
  split at h
  · cases h
  · next dir hdir =>
    split at h
    · cases h
    · next cause hcause =>
      cases h
      exact ⟨dir, cause, hdir, congrArg Prod.snd hcause, rfl⟩

theorem not_prepared_of_error {job : Job} {files : Tree} {w : World} {e : CampaignError}
    (h : prepare job ⟨files, []⟩ = (.error e, w)) : ¬ job.Prepared files := by
  intro hp
  have hok : (prepare job ⟨files, []⟩).1 = .ok () := (prepare_eq_ok_iff job _).2 hp
  rw [h] at hok
  cases hok

theorem Reached.prepared {env : Environment} {job : Job} {files : Tree} {p : Pause}
    (h : Reached env job files p) : job.Prepared files := by
  obtain ⟨w, hw, -⟩ := h
  refine (prepare_eq_ok_iff job ⟨files, []⟩).1 ?_
  rw [hw]

theorem Course.ending_of_result_eq_error {c : Course} {elapsed : Span} {state : Lifecycle}
    {e : CampaignError} (h : c.result elapsed state = .error e) : c.ending = .failed e := by
  unfold Course.result at h
  split at h
  · cases h
  · cases h
  · next hending =>
    cases h
    exact hending

/-- The course of a campaign on the given files, up to its last progress report. -/
inductive Complete (env : Environment) (job : Job) (files : Tree) : Course → Prop
  /-- The directory of the source file could not be made. -/
  | unprepared {e w} (h : prepare job ⟨files, []⟩ = (.error e, w)) :
      Complete env job files ⟨.failed e, .zero, w⟩
  | finished {p c} (hp : Reached env job files p) (h : turn env job p = .finished c) :
      Complete env job files c

theorem Course.summary_of_result_eq_ok {c : Course} {elapsed : Span} {state : Lifecycle}
    {summary : Summary} (h : c.result elapsed state = .ok summary) :
    summary.executed = c.tally.executed ∧
    summary.generatorFailures = c.tally.generatorFailures ∧
    summary.latency = c.tally.latency ∧
    (c.ending = .spent ∨ c.ending = .interrupted ∧ summary.interrupted = true) := by
  unfold Course.result at h
  split at h
  · next hending =>
    cases h
    exact ⟨rfl, rfl, rfl, .inl hending⟩
  · next hending =>
    cases h
    exact ⟨rfl, rfl, rfl, .inr ⟨hending, rfl⟩⟩
  · cases h

theorem course_complete {env : Environment} {fuel : Nat} {job : Job} {files : Tree} {c : Course}
    (h : course env fuel job ⟨files, []⟩ = some c) : Complete env job files c := by
  unfold course at h
  split at h
  · next e w hw =>
    cases h
    exact .unprepared hw
  · next w hw =>
    obtain ⟨q, hsteps, hfinished⟩ := turns_eq_some h
    exact .finished ⟨w, hw, hsteps⟩ hfinished

/-- The campaign after a course: it has shown its last progress, its artifacts are removed,
    and its state tells how the course ended. -/
def Course.closed (env : Environment) (job : Job) (c : Course) : Session where
  state := c.ending.state
  world :=
    { files := (removeArtifacts job.artifacts c.world.files).1
      history := c.world.history ++
        [.reading (env.elapsed c.world.history),
          .finish (env.elapsed c.world.history) c.tally.executed] }

/-- The first run of a campaign closes the course that its iterations take. -/
theorem run_start (env : Environment) (fuel : Nat) (job : Job) (files : Tree) :
    Session.run env fuel job (Session.start files) =
      (course env fuel job ⟨files, []⟩).map fun c =>
        (c.result (env.elapsed c.world.history) c.ending.state, c.closed env job) := by
  have hstart : (Session.start files).state.move .running = .ok .running := rfl
  have hworld : (Session.start files).world = ⟨files, []⟩ := rfl
  unfold Session.run
  rw [hstart, hworld]
  cases course env fuel job ⟨files, []⟩ with
  | none => rfl
  | some c =>
    -- both final states can be reached from a running campaign
    have hmove : Lifecycle.move .running c.ending.state = .ok c.ending.state := by
      cases c.ending <;> rfl
    show some (Session.close env job .running c) = _
    unfold Session.close readClock
    rw [hmove]
    unfold Course.closed World.log World.withFiles
    dsimp only [Option.map_some]
    rw [List.append_assoc, List.singleton_append]

/-- A finished first run has closed a complete course, and its result is that of the course. -/
theorem run_start_closed {env : Environment} {fuel : Nat} {job : Job} {files : Tree}
    {result : RunResult} {s : Session}
    (h : Session.run env fuel job (Session.start files) = some (result, s)) :
    ∃ c, Complete env job files c ∧
      result = c.result (env.elapsed c.world.history) c.ending.state ∧ s = c.closed env job := by
  rw [run_start] at h
  obtain ⟨c, hcourse, heq⟩ := Option.map_eq_some_iff.1 h
  obtain ⟨rfl, rfl⟩ := Prod.mk.inj heq
  exact ⟨c, course_complete hcourse, rfl, rfl⟩

/-- A campaign that has left its first state is not run again. -/
theorem run_of_ne_idle {s : Session} (h : s.state ≠ .idle) (env : Environment) (fuel : Nat)
    (job : Job) :
    Session.run env fuel job s =
      some (.error (.invalidTransition s.state.print Lifecycle.running.print), s) := by
  have hmove : s.state.move .running =
      .error (.invalidTransition s.state.print Lifecycle.running.print) := by
    cases hstate : s.state with
    | idle => exact absurd hstate h
    | running => rfl
    | completed => rfl
    | aborted => rfl
  unfold Session.run
  rw [hmove]

/-- A finished first run shows its last progress after a complete course, and its result is
    that of the course. -/
theorem run_start_cases {env : Environment} {fuel : Nat} {job : Job} {files : Tree}
    {result : RunResult} {s : Session}
    (h : Session.run env fuel job (Session.start files) = some (result, s)) :
    ∃ c, Complete env job files c ∧
      result = c.result (env.elapsed c.world.history) c.ending.state ∧
      s.world.history.rounds = c.world.history.rounds ∧
      s.world.history.beats = c.world.history.beats ++ [.finish c.tally.executed] := by
  obtain ⟨c, hcomplete, hresult, rfl⟩ := run_start_closed h
  exact ⟨c, hcomplete, hresult, History.rounds_append_of_groups_eq _ rfl,
    History.beats_append _ _⟩

/-! ## Runs that return -/

/-- The first run of a campaign on the given files comes to its end. -/
def Returns (env : Environment) (job : Job) (files : Tree) (result : RunResult) (s : Session) :
    Prop :=
  ∃ fuel, Session.run env fuel job (Session.start files) = some (result, s)

theorem turns_of_steps {env : Environment} {job : Job} {p q : Pause} {c : Course}
    (h : Relation.ReflTransGen (fun p q => turn env job p = .next q) p q)
    (hq : turn env job q = .finished c) : ∃ fuel, turns env job fuel p = some c := by
  induction h using Relation.ReflTransGen.head_induction_on with
  | refl =>
    refine ⟨1, ?_⟩
    rw [turns_succ, hq]
    rfl
  | head hturn _ ih =>
    obtain ⟨fuel, hfuel⟩ := ih
    refine ⟨fuel + 1, ?_⟩
    rw [turns_succ, hturn]
    exact hfuel

/-- A run whose course is complete returns. -/
theorem Complete.returns {env : Environment} {job : Job} {files : Tree} {c : Course}
    (h : Complete env job files c) :
    Returns env job files (c.result (env.elapsed c.world.history) c.ending.state)
      (c.closed env job) := by
  -- fuel for the turns that were taken is enough
  have hcourse : ∃ fuel, course env fuel job ⟨files, []⟩ = some c := by
    unfold course
    cases h with
    | unprepared hw =>
      rw [hw]
      exact ⟨0, rfl⟩
    | finished hp hturn =>
      obtain ⟨w, hw, hsteps⟩ := hp
      rw [hw]
      exact turns_of_steps hsteps hturn
  obtain ⟨fuel, hfuel⟩ := hcourse
  refine ⟨fuel, ?_⟩
  rw [run_start, hfuel]
  rfl

/-- More fuel does not change where a run ends. -/
theorem turns_add {env : Environment} {job : Job} {fuel : Nat} {p : Pause} {c : Course}
    (h : turns env job fuel p = some c) (more : Nat) :
    turns env job (fuel + more) p = some c := by
  induction fuel generalizing p with
  | zero => cases h
  | succ fuel ih =>
    rw [Nat.succ_add, turns_succ]
    rw [turns_succ] at h
    cases hturn : turn env job p with
    | next q =>
      rw [hturn] at h
      exact ih h
    | finished c' =>
      rw [hturn] at h
      exact h

theorem course_add {env : Environment} {fuel : Nat} {job : Job} {w : World} {c : Course}
    (h : course env fuel job w = some c) (more : Nat) :
    course env (fuel + more) job w = some c := by
  unfold course at h ⊢
  split
  · next e w' hw =>
    rw [hw] at h
    exact h
  · next w' hw =>
    rw [hw] at h
    exact turns_add h more

/-- A run returns one result only. -/
theorem Returns.unique {env : Environment} {job : Job} {files : Tree}
    {result result' : RunResult} {s s' : Session} (h : Returns env job files result s)
    (h' : Returns env job files result' s') : result = result' ∧ s = s' := by
  obtain ⟨fuel, hrun⟩ := h
  obtain ⟨fuel', hrun'⟩ := h'
  rw [run_start] at hrun hrun'
  obtain ⟨c, hc, heq⟩ := Option.map_eq_some_iff.1 hrun
  obtain ⟨c', hc', heq'⟩ := Option.map_eq_some_iff.1 hrun'
  have hboth : some c = some c' := by
    rw [← course_add hc fuel', ← course_add hc' fuel, Nat.add_comm]
  rw [Option.some.inj hboth] at heq
  exact Prod.mk.inj (heq.symm.trans heq')

end CompilerFuzz.Campaign
