/-
  CompilerFuzz.Proofs.Campaign.Freshness

  What the compiler sees. Every call of the generator empties the source file before the
  generator starts, and the file then takes its whole standard output. A world in which the
  last event is such a call, and one that succeeded, is `Generated`; the calls of the mode
  begin in no other world (`generateWithin_generated`), and the first of them reads the source
  file. So every call of the compiler finds the program that was written just before
  (`History.SeesProgram`), whatever stood there earlier.
-/
import CompilerFuzz.Proofs.Campaign.Kept
import CompilerFuzz.Proofs.Campaign.Lifecycle
import CompilerFuzz.Proofs.Files.Changes

namespace CompilerFuzz.Campaign

open CompilerFuzz.Files CompilerFuzz.Text

/-! ## Programs just written -/

/-- The generator changes the source file through its standard output alone. -/
def Environment.SparesSource (env : Environment) (job : Job) : Prop :=
  ∀ h files exit effect, env.respond h files job.generation = .ran exit effect →
    (effect (deliver job.generation exit.stdout files)).read job.artifacts.source =
      (deliver job.generation exit.stdout files).read job.artifacts.source

/-- The generator has just exited with status zero, and the source file holds its output. -/
def World.Generated (job : Job) (w : World) : Prop :=
  ∃ earlier found exit, w.history = earlier ++ [.call job.generation found (.ended exit)] ∧
    exit.status = some 0 ∧ w.files.read job.artifacts.source = .ok exit.stdout

/-- A step that reads the source file starts right after the generator has written it. -/
def Event.SeesProgram (job : Job) (before : History) : Event → Prop
  | .call invocation files _ =>
    invocation.step = .compile ∨ invocation.step = .emitIr → World.Generated job ⟨files, before⟩
  | .reading _ | .stopCheck _ | .update .. | .finish .. => True

/-- All calls of the compiler see the program that the last call of the generator wrote. -/
def History.SeesProgram (job : Job) (h : History) : Prop :=
  Throughout (fun before e => e.SeesProgram job before) h

/-! ## Calls of the generator -/

/-- Once the file for the output is open, the output arrives there. -/
theorem read_deliver {call : Invocation} {path : Path} (hc : call.output = .file path)
    {t t' : Tree} (h : openOutput call t = .ok t') (stdout : Bytes) :
    (deliver call stdout t').read path = .ok stdout := by
  unfold openOutput at h
  rw [hc] at h
  dsimp only at h
  cases hempty : t.write path [] with
  | error cause =>
    rw [hempty] at h
    cases h
  | ok emptied =>
    rw [hempty] at h
    cases h
    obtain ⟨t'', hw⟩ := Tree.write_of_write hempty stdout
    unfold deliver
    rw [hc]
    dsimp only
    rw [hw]
    exact Tree.read_of_write hw

section Generator

variable {env : Environment} {job : Job}

/-- A call of the generator that succeeds leaves its output in the source file. -/
theorem invoke_generated (henv : env.SparesSource job) {w w' : World} {o : Outcome}
    (h : invoke env job.generation w = (.ok o, w')) (ho : o.success = true) :
    w'.Generated job := by
  obtain ⟨files, exit, effect, hopen, hrespond, rfl, rfl⟩ := invoke_eq_ok h
  refine ⟨w.history, files, exit, rfl, eq_of_beq ho, ?_⟩
  -- the output has been delivered, and what else the generator does spares the file
  show (effect _).read job.artifacts.source = _
  rw [henv _ _ _ _ hrespond]
  exact read_deliver rfl hopen _

/-- The generator step gives a program only by a call that has just written it. -/
theorem generateWithin_generated (henv : env.SparesSource job) (extra failures : Nat) (w : World)
    (h : (generateWithin env job extra failures w).result = .ok true) :
    (generateWithin env job extra failures w).world.Generated job := by
  fun_induction generateWithin env job extra failures w with
  | case1 extra failures w e w' hi => cases h
  | case2 extra failures w o w' hi ho => exact invoke_generated henv hi ho
  | case3 failures w o w' hi ho =>
    -- giving up never means that there is a program
    change job.plan.policy.giveUp o = .ok true at h
    unfold Policy.giveUp at h
    split at h <;> cases h
  | case4 failures w o w' hi ho extra ih => exact ih h

end Generator

/-! ## Whole runs -/

/-- Every call is one event, and a call whose output is discarded changes no file before. -/
theorem invoke_history (env : Environment) (call : Invocation) (w : World) :
    ∃ files result, (invoke env call w).2.history = w.history ++ [.call call files result] ∧
      (call.output = .discard → files = w.files) := by
  unfold invoke
  split
  · exact ⟨_, _, rfl, fun _ => rfl⟩
  · next files hopen =>
    have hsame : call.output = .discard → files = w.files := by
      intro hc
      unfold openOutput at hopen
      rw [hc] at hopen
      exact (Except.ok.inj hopen).symm
    split
    · exact ⟨_, _, rfl, hsame⟩
    · exact ⟨_, _, rfl, hsame⟩

theorem invoke_seesProgram {env : Environment} {job : Job} {call : Invocation} {w : World}
    (h : w.history.SeesProgram job)
    (hc : call.step = .compile ∨ call.step = .emitIr →
      call.output = .discard ∧ w.Generated job) :
    (invoke env call w).2.history.SeesProgram job := by
  obtain ⟨files, result, hhistory, hfiles⟩ := invoke_history env call w
  rw [hhistory]
  refine h.concat fun hstep => ?_
  obtain ⟨hdiscard, hgenerated⟩ := hc hstep
  rw [hfiles hdiscard]
  exact hgenerated

/-- The calls of the mode start with the one that reads the source file. -/
theorem Job.exercises_cases (job : Job) :
    (∃ call, job.exercises.head? = some call ∧ call.output = .discard) ∧
      ∀ call ∈ job.exercises.tail, call.step = .optimize := by
  unfold Job.exercises
  cases job.plan.mode with
  | pipeline level => exact ⟨⟨_, rfl, rfl⟩, List.forall_mem_nil _⟩
  | singlePass name => exact ⟨⟨_, rfl, rfl⟩, List.forall_mem_singleton.2 rfl⟩

theorem steady_seesProgram {env : Environment} {job : Job} (henv : env.SparesSource job) :
    Steady env job fun w => w.history.SeesProgram job where
  iterate w hw := by
    have hcall : ∀ w : World, w.history.SeesProgram job →
        (invoke env job.generation w).2.history.SeesProgram job :=
      fun w hw => invoke_seesProgram hw (by rintro (h | h) <;> cases h)
    have hgenerated : (generate env job w).world.history.SeesProgram job :=
      generateWithin_kept (P := fun w => w.history.SeesProgram job) hcall _ 0 w hw
    obtain ⟨⟨first, hfirst, hdiscard⟩, hrest⟩ := job.exercises_cases
    -- between the generator and the first call of the mode the program is also there to be seen
    refine iterate_kept (P := fun w => w.history.SeesProgram job)
      (Q := fun w => w.history.SeesProgram job ∧ w.Generated job) hgenerated
      (fun h => ⟨hgenerated, generateWithin_generated henv _ 0 w h⟩) ?_
    rintro w ⟨hsees, hprogram⟩
    refine exercise_kept (P := fun w => w.history.SeesProgram job) (fun call hc => ?_)
      fun call hc w hw => ?_
    · obtain rfl : first = call := Option.some.inj (hfirst.symm.trans hc)
      exact invoke_seesProgram hsees fun _ => ⟨hdiscard, hprogram⟩
    · refine invoke_seesProgram hw fun hstep => ?_
      rw [hrest call hc] at hstep
      rcases hstep with h | h <;> cases h
  check w hw := Throughout.concat hw trivial
  progress _ w hw := Throughout.concat (Throughout.concat hw trivial) trivial

theorem Returns.seesProgram {env : Environment} {job : Job} (henv : env.SparesSource job)
    {files : Tree} {result : RunResult} {s : Session} (h : Returns env job files result s) :
    s.world.history.SeesProgram job := by
  refine h.history (steady_seesProgram henv) .nil fun t elapsed executed ht => ?_
  rw [← List.singleton_append, ← List.append_assoc]
  exact Throughout.concat (Throughout.concat ht trivial) trivial

/-- A generator that writes much and fails, then little and succeeds. One iteration with other
    tools that do nothing takes up a second. -/
def recovering : Environment where
  respond h _ call :=
    .ran (if call.step = .generate then
      if h.attempts.isEmpty then ⟨some 1, [1, 2, 3], []⟩ else ⟨some 0, [4], []⟩
      else ⟨some 0, [], []⟩) id
  elapsed h := if h.attempts.isEmpty then .zero else .ofSecs 1
  latency _ := .zero
  stop _ := false

/-- What a step that reads the source file finds there. -/
def Event.source? (job : Job) : Event → Option Bytes
  | .call invocation files _ =>
    if invocation.step = .compile ∨ invocation.step = .emitIr then
      (files.read job.artifacts.source).toOption
    else none
  | .reading _ | .stopCheck _ | .update .. | .finish .. => none

/-- Whatever the policy and the mode, whatever the tools answer and write, and whatever stood
    in the source file before: if the generator changes that file through its standard output
    alone, then in every run, whether it returns or not, and after any operations on the
    campaign, every call of the compiler came right after a call of the generator that exited
    with status zero, and found in the source file exactly what that call wrote. -/
theorem run_seesProgram {env : Environment} {job : Job} (henv : env.SparesSource job)
    (files : Tree) :
    (∀ p, Reached env job files p → p.world.history.SeesProgram job) ∧
    ∀ log s, Session.Performs env job files log s → s.world.history.SeesProgram job := by
  constructor
  · intro p hp
    refine hp.steady (steady_seesProgram henv) ?_
    rw [prepare_history]
    exact .nil
  · intro log s hs
    obtain hnone | ⟨_, _, _, hreturns, hsame⟩ := hs.history_cases
    · rw [hnone]
      exact .nil
    · rw [hsame]
      exact hreturns.seesProgram henv

/-- Neither the old program nor what the failed call wrote is left when the compiler starts. -/
theorem seesProgram_of_recovering_generator :
    recovering.SparesSource retrying ∧
    ∃ result s, Session.run recovering 2 retrying
        (Session.start ⟨[(Location.home ++ ["prog.c"], .file [9, 9, 9, 9])]⟩) =
          some (result, s) ∧
      s.world.history.filterMap (Event.source? retrying) = [[4]] ∧
      s.world.history.SeesProgram retrying := by
  have hspares : recovering.SparesSource retrying := by
    intro h files exit effect hrespond
    cases hrespond
    rfl
  have hrun : (Session.run recovering 2 retrying
      (Session.start ⟨[(Location.home ++ ["prog.c"], .file [9, 9, 9, 9])]⟩)).any fun r =>
      r.2.world.history.filterMap (Event.source? retrying) == [[4]] := by
    decide +kernel
  obtain ⟨⟨result, s⟩, hs, hseen⟩ := (Option.any_eq_true _ _).1 hrun
  have hperforms := Session.Performs.start.step (.run hs)
  exact ⟨hspares, result, s, hs, eq_of_beq hseen, (run_seesProgram hspares _).2 _ s hperforms⟩

end CompilerFuzz.Campaign
