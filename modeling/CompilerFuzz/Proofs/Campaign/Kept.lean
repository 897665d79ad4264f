/-
  CompilerFuzz.Proofs.Campaign.Kept

  Properties of worlds that hold throughout a run. What a run does to its world between its
  preparation and its end are iterations, looks at the stop flag and progress reports. A
  property that these keep (`Steady`) and that holds when the run is prepared holds at every
  pause (`Reached.steady`) and at the end of every course (`Complete.steady`). It is enough
  that every call of a tool keeps it (`Kept.steady`), unless the property depends on what an
  iteration has called before. For properties of the history alone there is a form without the
  preparation (`Reached.history`, `Returns.history`): every attempt went as the system answered
  (`Returns.answered`). A property of single attempts holds of all of them if it holds of every
  attempt at a call of the job (`kept_attempts`).
-/
import CompilerFuzz.Proofs.Campaign.Loop

namespace CompilerFuzz.Campaign

open CompilerFuzz.Files

/-- All calls that a campaign makes. -/
def Job.calls (job : Job) : List Invocation := job.generation :: job.exercises

section Parts

variable {env : Environment} {job : Job} {P : World → Prop}

/-- What every call of the generator keeps, the generator step keeps. -/
theorem generateWithin_kept (h : ∀ w, P w → P (invoke env job.generation w).2)
    (extra failures : Nat) (w : World) (hw : P w) :
    P (generateWithin env job extra failures w).world := by
  have hcall : ∀ {w w' : World} {result : Except CampaignError Outcome}, P w →
      invoke env job.generation w = (result, w') → P w' := by
    intro w w' result hw hi
    have hinvoked := h w hw
    rwa [hi] at hinvoked
  fun_induction generateWithin env job extra failures w with
  | case1 extra failures w e w' hi => exact hcall hw hi
  | case2 extra failures w o w' hi ho => exact hcall hw hi
  | case3 failures w o w' hi ho => exact hcall hw hi
  | case4 failures w o w' hi ho extra ih => exact ih (hcall hw hi)

/-- A tool that must succeed is called like any other. -/
theorem require_world (env : Environment) (call : Invocation) (w : World) :
    (require env call w).2 = (invoke env call w).2 := by
  unfold require
  generalize invoke env call w = x
  obtain ⟨result, w'⟩ := x
  cases result <;> rfl

/-- The calls of the mode keep what the first of them establishes and the others keep. -/
theorem exercise_kept {w : World}
    (hfirst : ∀ call ∈ job.exercises.head?, P (invoke env call w).2)
    (hrest : ∀ call ∈ job.exercises.tail, ∀ w, P w → P (invoke env call w).2) :
    P (exercise env job w).2 := by
  unfold Job.exercises at hfirst hrest
  unfold exercise
  cases hmode : job.plan.mode with
  | pipeline level =>
    rw [hmode] at hfirst
    dsimp only
    rw [require_world]
    exact hfirst _ rfl
  | singlePass name =>
    rw [hmode] at hfirst hrest
    have hemitted := hfirst _ rfl
    rw [← require_world] at hemitted
    dsimp only
    generalize require env (job.toolchain.emitIr job.artifacts) w = x at *
    obtain ⟨result, w'⟩ := x
    -- the optimizer is called only if there is something to optimize
    cases result with
    | error e => exact hemitted
    | ok u =>
      dsimp only
      rw [require_world]
      exact hrest _ (List.mem_singleton_self _) w' hemitted

/-- An iteration exercises the tools in the world that its generator step leaves, and only if
    there is a program. -/
theorem iterate_kept {Q : World → Prop} {w : World} (hgenerated : P (generate env job w).world)
    (hprogram : (generate env job w).result = .ok true → Q (generate env job w).world)
    (hexercise : ∀ w, Q w → P (exercise env job w).2) : P (iterate env job w).world := by
  unfold iterate
  generalize generate env job w = g at *
  obtain ⟨result, failures, w'⟩ := g
  cases result with
  | error e => exact hgenerated
  | ok executed =>
    cases executed with
    | false => exact hgenerated
    | true =>
      have hexercised := hexercise w' (hprogram rfl)
      dsimp only
      generalize exercise env job w' = x at *
      obtain ⟨result, w''⟩ := x
      cases result with
      | error e => exact hexercised
      | ok u => exact hexercised

end Parts

/-- What an iteration, a look at the stop flag and a progress report do keeps the property. -/
structure Steady (env : Environment) (job : Job) (P : World → Prop) : Prop where
  iterate : ∀ w, P w → P (iterate env job w).world
  check : ∀ w, P w → P (checkStop env w).2
  progress : ∀ executed w, P w → P (showProgress env executed w).2

/-- One turn of the loop keeps the property, whether it leads on or not. -/
theorem Steady.turn {env : Environment} {job : Job} {P : World → Prop} (h : Steady env job P)
    {p : Pause} (hp : P p.world) :
    (∀ q, turn env job p = .next q → P q.world) ∧
      ∀ c, turn env job p = .finished c → P c.world := by
  have hchecked := h.check p.world hp
  unfold Campaign.turn
  -- spent, stopped, led on, broken: a property of the world does not depend on what is returned
  split
  · exact ⟨nofun, fun c hc => Turn.finished.inj hc ▸ hp⟩
  · generalize checkStop env p.world = x at *
    obtain ⟨stop, w⟩ := x
    cases stop with
    | true => exact ⟨nofun, fun c hc => Turn.finished.inj hc ▸ hchecked⟩
    | false =>
      have hiterated := h.iterate w hchecked
      dsimp only
      unfold settle
      generalize Campaign.iterate env job w = stage at *
      obtain ⟨result, failures, w'⟩ := stage
      cases result with
      | ok executed => exact ⟨fun q hq => Turn.next.inj hq ▸ h.progress _ w' hiterated, nofun⟩
      | error e =>
        have hchecked' := h.check w' hiterated
        dsimp only
        generalize checkStop env w' = y at *
        obtain ⟨stop, w''⟩ := y
        cases stop with
        | true => exact ⟨nofun, fun c hc => Turn.finished.inj hc ▸ hchecked'⟩
        | false => exact ⟨nofun, fun c hc => Turn.finished.inj hc ▸ hchecked'⟩

/-- Everything that a run does to its world keeps the property. -/
structure Kept (env : Environment) (job : Job) (P : World → Prop) : Prop where
  call : ∀ call ∈ job.calls, ∀ w, P w → P (invoke env call w).2
  check : ∀ w, P w → P (checkStop env w).2
  progress : ∀ executed w, P w → P (showProgress env executed w).2

namespace Kept

variable {env : Environment} {job : Job} {P : World → Prop}

theorem exercise (h : Kept env job P) (w : World) (hw : P w) : P (exercise env job w).2 :=
  exercise_kept (fun call hc => h.call call (List.mem_cons_of_mem _ (List.mem_of_mem_head? hc)) w hw)
    fun call hc => h.call call (List.mem_cons_of_mem _ (List.mem_of_mem_tail hc))

theorem steady (h : Kept env job P) : Steady env job P where
  iterate w hw := by
    have hgenerated : P (generate env job w).world :=
      generateWithin_kept (h.call job.generation List.mem_cons_self) _ 0 w hw
    exact iterate_kept hgenerated (fun _ => hgenerated) h.exercise
  check := h.check
  progress := h.progress

end Kept

variable {env : Environment} {job : Job} {files : Tree} {P : World → Prop}

theorem Reached.steady {p : Pause} (hp : Reached env job files p) (h : Steady env job P)
    (hprepared : P (prepare job ⟨files, []⟩).2) : P p.world := by
  obtain ⟨w, hw, hsteps⟩ := hp
  rw [hw] at hprepared
  induction hsteps with
  | refl => exact h.progress 0 w hprepared
  | tail _ hturn ih => exact (h.turn ih).1 _ hturn

theorem Complete.steady {c : Course} (hc : Complete env job files c) (h : Steady env job P)
    (hprepared : P (prepare job ⟨files, []⟩).2) : P c.world := by
  cases hc with
  | unprepared hw =>
    rw [hw] at hprepared
    exact hprepared
  | finished hp hturn => exact (h.turn (hp.steady h hprepared)).2 _ hturn

theorem Complete.kept {c : Course} (hc : Complete env job files c) (h : Kept env job P)
    (hprepared : P (prepare job ⟨files, []⟩).2) : P c.world :=
  hc.steady h.steady hprepared

/-! ## Histories -/

section Histories

variable {H : History → Prop}

/-- Preparing a run notes nothing, so what holds of the empty history holds when it is prepared. -/
theorem Reached.history {p : Pause} (hp : Reached env job files p)
    (h : Steady env job fun w => H w.history) (hnil : H []) : H p.world.history := by
  refine hp.steady h ?_
  rw [prepare_history]
  exact hnil

theorem Returns.history {result : RunResult} {s : Session} (hr : Returns env job files result s)
    (h : Steady env job fun w => H w.history) (hnil : H [])
    (hend : ∀ t elapsed executed, H t → H (t ++ [.reading elapsed, .finish elapsed executed])) :
    H s.world.history := by
  obtain ⟨_, hrun⟩ := hr
  obtain ⟨c, hc, -, rfl⟩ := run_start_closed hrun
  refine hend c.world.history _ _ (hc.steady h ?_)
  rw [prepare_history]
  exact hnil

end Histories

/-! ## Answers -/

/-- What an event tells of a tool is what the system answered after the events before it. -/
inductive Event.Answered (env : Environment) (before : History) : Event → Prop
  | noOutput {call files path cause} (h : openOutput call files = .error (path, cause)) :
      Answered env before (.call call files (.noOutput cause))
  | nul {call files} (h : call.hasNul = true) :
      Answered env before (.call call files (.notStarted .nulInArgument))
  | notStarted {call files cause} (hn : call.hasNul = false)
      (h : env.respond before files call = .cannotStart cause) :
      Answered env before (.call call files (.notStarted cause))
  | ended {call files exit effect} (hn : call.hasNul = false)
      (h : env.respond before files call = .ran exit effect) :
      Answered env before (.call call files (.ended exit))
  | silent {e} (h : e.attempt? = none) : Answered env before e

/-- Every attempt of a history went as the system answered. -/
def History.Answered (env : Environment) (h : History) : Prop :=
  Throughout (fun before e => e.Answered env before) h

/-- A call adds one event, which tells the answer to it. -/
theorem invoke_answered (env : Environment) (call : Invocation) (w : World) :
    ∃ e, (invoke env call w).2.history = w.history ++ [e] ∧ e.Answered env w.history := by
  unfold invoke
  split
  · next path cause hopen => exact ⟨_, rfl, .noOutput hopen⟩
  · next files _ =>
    have hanswer : env.answer call w files =
        if call.hasNul then .cannotStart .nulInArgument else env.respond w.history files call := rfl
    cases hn : call.hasNul with
    | true =>
      rw [hanswer, hn]
      exact ⟨_, rfl, .nul hn⟩
    | false =>
      rw [hanswer, hn]
      cases hrespond : env.respond w.history files call with
      | cannotStart cause => exact ⟨_, rfl, .notStarted hn hrespond⟩
      | ran exit effect => exact ⟨_, rfl, .ended hn hrespond⟩

theorem kept_answered (env : Environment) (job : Job) :
    Kept env job fun w => w.history.Answered env where
  call call _ w hw := by
    obtain ⟨e, hhistory, he⟩ := invoke_answered env call w
    rw [hhistory]
    exact hw.concat he
  check w hw := hw.concat (.silent rfl)
  progress executed w hw := by
    have hreading : History.Answered env (w.history ++ [.reading (env.elapsed w.history)]) :=
      hw.concat (.silent rfl)
    exact hreading.concat (.silent rfl)

theorem Reached.answered {p : Pause} (hp : Reached env job files p) :
    p.world.history.Answered env :=
  hp.history (kept_answered env job).steady .nil

theorem Returns.answered {result : RunResult} {s : Session}
    (hr : Returns env job files result s) : s.world.history.Answered env := by
  refine hr.history (H := History.Answered env) (kept_answered env job).steady .nil ?_
  intro t elapsed executed ht
  have hreading : History.Answered env (t ++ [.reading elapsed]) := ht.concat (.silent rfl)
  rw [List.append_cons]
  exact hreading.concat (.silent rfl)

/-! ## Attempts -/

section Attempts

variable {Q : Attempt → Prop}

/-- It is enough that every attempt at a call of the job has the property. -/
theorem kept_attempts
    (h : ∀ call ∈ job.calls, ∀ w : World, ∃ a, w.Made [a] (invoke env call w).2 ∧ Q a) :
    Kept env job fun w => ∀ a ∈ w.history.attempts, Q a where
  call call hc w hw := by
    obtain ⟨a, hm, ha⟩ := h call hc w
    rw [hm.attempts_eq, List.forall_mem_append, List.forall_mem_singleton]
    exact ⟨hw, ha⟩
  check w hw := by
    show ∀ a ∈ History.attempts (w.history ++ [_]), Q a
    rw [History.attempts_append]
    exact List.forall_mem_append.2 ⟨hw, List.forall_mem_nil _⟩
  progress executed w hw := by
    show ∀ a ∈ History.attempts ((w.history ++ [_]) ++ [_]), Q a
    rw [List.append_assoc, History.attempts_append]
    exact List.forall_mem_append.2 ⟨hw, List.forall_mem_nil _⟩

theorem Reached.attempts {p : Pause} (hp : Reached env job files p)
    (h : Kept env job fun w => ∀ a ∈ w.history.attempts, Q a) :
    ∀ a ∈ p.world.history.attempts, Q a :=
  hp.history (H := fun t => ∀ a ∈ t.attempts, Q a) h.steady (List.forall_mem_nil _)

theorem Returns.attempts {result : RunResult} {s : Session} (hr : Returns env job files result s)
    (h : Kept env job fun w => ∀ a ∈ w.history.attempts, Q a) :
    ∀ a ∈ s.world.history.attempts, Q a := by
  refine hr.history (H := fun t => ∀ a ∈ t.attempts, Q a) h.steady (List.forall_mem_nil _) ?_
  -- the run ends with events that are no attempts
  intro t elapsed executed ht
  rw [History.attempts_append]
  exact List.forall_mem_append.2 ⟨ht, List.forall_mem_nil _⟩

end Attempts

end CompilerFuzz.Campaign
