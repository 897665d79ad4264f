/-
  CompilerFuzz.Proofs.Campaign.Lifecycle

  The life of a campaign. Runs, cleanups and changes that others make to the files follow
  one another in any order; `Session.Performs` keeps a log of them. What shows of a
  campaign between them depends on one thing, the result of the run that returned first:
  `LogEntry.Regular` says what every entry of the log then looks like. `Session.Does.regular`
  is the step, `Session.Performs.regular` the induction over a log.
-/
import CompilerFuzz.Proofs.Campaign.StepGrammar

namespace CompilerFuzz.Campaign

open CompilerFuzz.Files

/-! ## Operations and their log -/

/-- What can happen to a campaign between two looks at its state. -/
inductive Operation
  | run
  | cleanup
  /-- Somebody else changes the files. -/
  | change (files : Tree)
  deriving DecidableEq, Repr

/-- An operation and what it returned, with the campaign before and after it. -/
structure LogEntry where
  operation : Operation
  before : Session
  result : Option RunResult
  after : Session

/-- What an operation returns, and what it makes of a campaign. -/
inductive Session.Does (env : Environment) (job : Job) (s : Session) :
    Operation → Option RunResult → Session → Prop
  | run {fuel result s'} (h : Session.run env fuel job s = some (result, s')) :
      Does env job s .run (some result) s'
  | cleanup : Does env job s .cleanup none (s.cleanup job)
  | change (files : Tree) :
      Does env job s (.change files) none { s with world := s.world.withFiles files }

/-- Operations one after another on a new campaign: their log, and the campaign after
    them. -/
inductive Session.Performs (env : Environment) (job : Job) (files : Tree) :
    List LogEntry → Session → Prop
  | start : Performs env job files [] (.start files)
  | step {log s operation result s'} (h : Performs env job files log s)
      (hd : s.Does env job operation result s') :
      Performs env job files (log ++ [⟨operation, s, result, s'⟩]) s'

/-- The result of the run that returned first. -/
def firstResult? (log : List LogEntry) : Option RunResult := log.findSome? LogEntry.result

/-- The state that shows once a run has returned, or before any has. -/
def Lifecycle.ofResult : Option RunResult → Lifecycle
  | none => .idle
  | some (.ok _) => .completed
  | some (.error _) => .aborted

/-- What an operation does after those logged in `earlier`. -/
structure LogEntry.Regular (earlier : List LogEntry) (entry : LogEntry) : Prop where
  before_state : entry.before.state = .ofResult (firstResult? earlier)
  after_state : entry.after.state = .ofResult (firstResult? (earlier ++ [entry]))
  /-- Nobody sees the campaign run. -/
  not_running : entry.before.state ≠ .running ∧ entry.after.state ≠ .running
  /-- The first run returns a summary that calls it completed, or an error of its own. -/
  first : entry.operation = .run → firstResult? earlier = none →
    ∃ result, entry.result = some result ∧
      (∀ summary, result = .ok summary → summary.state = .completed) ∧
      ∀ source target, result ≠ .error (.invalidTransition source target)
  /-- Every later run is refused and does nothing at all. -/
  later : entry.operation = .run → ∀ result, firstResult? earlier = some result →
    entry.result = some (.error
      (.invalidTransition (Lifecycle.ofResult (some result)).print Lifecycle.running.print)) ∧
    entry.after = entry.before
  /-- Cleanups and changes of the files return nothing and concern the files alone. -/
  other : entry.operation ≠ .run →
    entry.result = none ∧ entry.after.state = entry.before.state ∧
    entry.after.world.history = entry.before.world.history

/-! ## One operation -/

theorem ne_running_of_eq_ofResult {state : Lifecycle} {result : Option RunResult}
    (h : state = .ofResult result) : state ≠ .running := by
  rw [h]
  rcases result with _ | _ | _ <;> nofun

theorem Lifecycle.ofResult_some_ne_idle (result : RunResult) :
    Lifecycle.ofResult (some result) ≠ .idle := by
  cases result <;> nofun

/-- The state that a course leaves its campaign in tells its result. -/
theorem Course.ofResult_result (c : Course) (elapsed : Span) (state : Lifecycle) :
    Lifecycle.ofResult (some (c.result elapsed state)) = c.ending.state := by
  unfold Course.result
  cases c.ending <;> rfl

theorem Course.state_of_result {c : Course} {elapsed : Span} {summary : Summary}
    (h : c.result elapsed c.ending.state = .ok summary) : summary.state = .completed := by
  unfold Course.result at h
  cases hending : c.ending with
  | spent =>
    rw [hending] at h
    cases h
    rfl
  | interrupted =>
    rw [hending] at h
    cases h
    rfl
  | failed e =>
    rw [hending] at h
    cases h

/-- The state after a first run is that of its result. -/
theorem Returns.state_eq {env : Environment} {job : Job} {files : Tree} {result : RunResult}
    {s : Session} (h : Returns env job files result s) : s.state = .ofResult (some result) := by
  obtain ⟨_, hrun⟩ := h
  obtain ⟨c, -, rfl, rfl⟩ := run_start_closed hrun
  exact (c.ofResult_result _ _).symm

theorem Returns.completed {env : Environment} {job : Job} {files : Tree} {summary : Summary}
    {s : Session} (h : Returns env job files (.ok summary) s) : summary.state = .completed := by
  obtain ⟨_, hrun⟩ := h
  obtain ⟨c, -, hresult, rfl⟩ := run_start_closed hrun
  exact c.state_of_result hresult.symm

/-- The errors of a run are those of its tools and files. -/
theorem Blamed.ne_invalidTransition {job : Job} {files : Tree} {h : History} {e : CampaignError}
    (hb : Blamed job files h e) (source target : String) : e ≠ .invalidTransition source target := by
  rintro rfl
  cases hb with
  | attempt _ _ _ he => cases he

/-- The state of a campaign tells how its first run ended, and without one nothing has
    happened to it. -/
structure Session.After (log : List LogEntry) (s : Session) : Prop where
  state : s.state = .ofResult (firstResult? log)
  history : firstResult? log = none → s.world.history = []

theorem firstResult?_concat (log : List LogEntry) (entry : LogEntry) :
    firstResult? (log ++ [entry]) = (firstResult? log).or entry.result := by
  unfold firstResult?
  rw [List.findSome?_append]
  congr 1
  exact List.findSome?_singleton

theorem Session.After.eq_start {log : List LogEntry} {s : Session} (h : s.After log)
    (hnone : firstResult? log = none) : s = .start s.world.files := by
  obtain ⟨state, files, history⟩ := s
  have hstate : state = .idle := h.state.trans (congrArg Lifecycle.ofResult hnone)
  have hhistory : history = [] := h.history hnone
  rw [hstate, hhistory]
  rfl

/-- Once a run has returned, the campaign is idle no more. -/
theorem Session.After.ne_idle {log : List LogEntry} {s : Session} (h : s.After log)
    {first : RunResult} (hfirst : firstResult? log = some first) : s.state ≠ .idle := by
  rw [h.state, hfirst]
  exact Lifecycle.ofResult_some_ne_idle first

/-- An entry whose states are those that the log tells of leaves the campaign as the longer
    log tells. -/
theorem Session.After.concat {log : List LogEntry} {entry : LogEntry}
    (hstate : entry.after.state = .ofResult (firstResult? (log ++ [entry])))
    (hhistory : firstResult? log = none → entry.result = none → entry.after.world.history = []) :
    entry.after.After (log ++ [entry]) := by
  refine ⟨hstate, fun hnone => ?_⟩
  rw [firstResult?_concat, Option.or_eq_none_iff] at hnone
  exact hhistory hnone.1 hnone.2

section Step

variable {env : Environment} {job : Job} {s s' : Session} {log : List LogEntry}

/-- A change of the files alone. -/
theorem regular_of_files {operation : Operation} (hs : s.After log) (hop : operation ≠ .run)
    (hstate : s'.state = s.state) (hhistory : s'.world.history = s.world.history) :
    LogEntry.Regular log ⟨operation, s, none, s'⟩ ∧ s'.After (log ++ [⟨operation, s, none, s'⟩]) := by
  have hafter : s'.state = .ofResult (firstResult? (log ++ [⟨operation, s, none, s'⟩])) := by
    rw [firstResult?_concat, Option.or_none, hstate]
    exact hs.state
  constructor
  · exact {
      before_state := hs.state
      after_state := hafter
      not_running := ⟨ne_running_of_eq_ofResult hs.state, ne_running_of_eq_ofResult hafter⟩
      first := fun h => absurd h hop
      later := fun h => absurd h hop
      other := fun _ => ⟨rfl, hstate, hhistory⟩ }
  · exact .concat hafter fun hnone _ => hhistory.trans (hs.history hnone)

/-- The first run. -/
theorem regular_of_first_run {fuel : Nat} {result : RunResult} (hs : s.After log)
    (hnone : firstResult? log = none) (hrun : Session.run env fuel job s = some (result, s')) :
    LogEntry.Regular log ⟨.run, s, some result, s'⟩ ∧
      s'.After (log ++ [⟨.run, s, some result, s'⟩]) := by
  rw [hs.eq_start hnone] at hrun
  have hreturns : Returns env job s.world.files result s' := ⟨fuel, hrun⟩
  have hafter : s'.state = .ofResult (firstResult? (log ++ [⟨.run, s, some result, s'⟩])) := by
    rw [firstResult?_concat, hnone, Option.none_or]
    exact hreturns.state_eq
  have hcompleted : ∀ summary, result = .ok summary → summary.state = .completed := by
    rintro summary rfl
    exact hreturns.completed
  have hown : ∀ source target, result ≠ .error (.invalidTransition source target) := by
    -- the error of a run that was started is that of an attempt or of the directory
    rintro source target rfl
    obtain ⟨c, hcomplete, hresult, -⟩ := run_start_closed hrun
    have hblamed := hcomplete.blamed (Course.ending_of_result_eq_error hresult.symm) rfl
    exact hblamed.ne_invalidTransition source target rfl
  constructor
  · exact {
      before_state := hs.state
      after_state := hafter
      not_running := ⟨ne_running_of_eq_ofResult hs.state, ne_running_of_eq_ofResult hafter⟩
      first := fun _ _ => ⟨result, rfl, hcompleted, hown⟩
      later := fun _ first hfirst => nomatch hnone.symm.trans hfirst
      other := fun h => absurd rfl h }
  · exact .concat hafter nofun

/-- A run after one that has returned. -/
theorem regular_of_later_run {fuel : Nat} {first result : RunResult} (hs : s.After log)
    (hfirst : firstResult? log = some first)
    (hrun : Session.run env fuel job s = some (result, s')) :
    LogEntry.Regular log ⟨.run, s, some result, s'⟩ ∧
      s'.After (log ++ [⟨.run, s, some result, s'⟩]) := by
  have hstate : s.state = .ofResult (some first) := hfirst ▸ hs.state
  rw [run_of_ne_idle (hs.ne_idle hfirst) env fuel job, hstate] at hrun
  obtain ⟨rfl, rfl⟩ := Prod.mk.inj (Option.some.inj hrun)
  -- the run is refused, so the first result is still the first
  have hafter : s.state = .ofResult (firstResult? (log ++ [⟨.run, s, some (.error
      (.invalidTransition (Lifecycle.ofResult (some first)).print Lifecycle.running.print)),
      s⟩])) := by
    rw [firstResult?_concat, hfirst, Option.some_or]
    exact hstate
  constructor
  · exact {
      before_state := hs.state
      after_state := hafter
      not_running := ⟨ne_running_of_eq_ofResult hs.state, ne_running_of_eq_ofResult hafter⟩
      first := fun _ hnone => nomatch hnone.symm.trans hfirst
      later := by
        intro _ result hresult
        obtain rfl := Option.some.inj (hfirst.symm.trans hresult)
        exact ⟨rfl, rfl⟩
      other := fun h => absurd rfl h }
  · exact .concat hafter nofun

/-- An operation is regular, and leaves the campaign as its log says. -/
theorem Session.Does.regular {operation : Operation} {result : Option RunResult}
    (hd : s.Does env job operation result s') (hs : s.After log) :
    LogEntry.Regular log ⟨operation, s, result, s'⟩ ∧
      s'.After (log ++ [⟨operation, s, result, s'⟩]) := by
  cases hd with
  | run hrun =>
    cases hfirst : firstResult? log with
    | none => exact regular_of_first_run hs hfirst hrun
    | some first => exact regular_of_later_run hs hfirst hrun
  | cleanup => exact regular_of_files hs nofun rfl rfl
  | change files => exact regular_of_files hs nofun rfl rfl

end Step

/-! ## All operations -/

/-- Every entry of the log of a campaign is regular, by induction on the log. -/
theorem Session.Performs.regular {env : Environment} {job : Job} {files : Tree}
    {log : List LogEntry} {s : Session} (h : Session.Performs env job files log s) :
    Throughout LogEntry.Regular log ∧ s.After log := by
  induction h with
  | start => exact ⟨.nil, rfl, fun _ => rfl⟩
  | step _ hd ih =>
    obtain ⟨hregular, hafter⟩ := ih
    obtain ⟨hentry, hafter'⟩ := hd.regular hafter
    exact ⟨hregular.concat hentry, hafter'⟩

/-- What has happened to a campaign happened in the run that returned first, if one has. -/
theorem Session.Performs.history_cases {env : Environment} {job : Job} {files : Tree}
    {log : List LogEntry} {s : Session} (h : Session.Performs env job files log s) :
    s.world.history = [] ∨ ∃ found result returned, Returns env job found result returned ∧
      s.world.history = returned.world.history := by
  induction h with
  | start => exact .inl rfl
  | @step log s operation result s' h hd ih =>
    cases hd with
    | @run fuel result _ hrun =>
      have hafter := h.regular.2
      cases hfirst : firstResult? log with
      | none =>
        -- the first run finds a new campaign, whatever was done to the files before
        rw [hafter.eq_start hfirst] at hrun
        exact .inr ⟨_, _, _, ⟨fuel, hrun⟩, rfl⟩
      | some first =>
        -- a later one leaves no trace
        rw [run_of_ne_idle (hafter.ne_idle hfirst)] at hrun
        obtain ⟨-, rfl⟩ := Prod.mk.inj (Option.some.inj hrun)
        exact ih
    | cleanup => exact ih
    | change files => exact ih

/-- What holds of the empty history and of all that runs leave, holds of every campaign. -/
theorem Session.Performs.history {env : Environment} {job : Job} {files : Tree}
    {log : List LogEntry} {s : Session} (h : Session.Performs env job files log s)
    {H : History → Prop} (hnil : H [])
    (hreturns : ∀ {found result returned}, Returns env job found result returned →
      H returned.world.history) : H s.world.history := by
  obtain hnone | ⟨_, _, _, hfirst, hsame⟩ := h.history_cases
  · rw [hnone]
    exact hnil
  · rw [hsame]
    exact hreturns hfirst

/-- Whatever is done to a campaign, in any order, and whatever its tools, its clock and its
    stop flag answer: every operation is regular, the state is that of the run that returned
    first, and once there is one every further run is refused at once. -/
theorem performs_lifecycle {env : Environment} {job : Job} {files : Tree} {log : List LogEntry}
    {s : Session} (h : Session.Performs env job files log s) :
    Throughout LogEntry.Regular log ∧
    s.state = .ofResult (firstResult? log) ∧
    ∀ result, firstResult? log = some result → ∀ fuel,
      Session.run env fuel job s =
        some (.error (.invalidTransition s.state.print Lifecycle.running.print), s) := by
  obtain ⟨hregular, hafter⟩ := h.regular
  refine ⟨hregular, hafter.state, fun result hresult fuel => ?_⟩
  exact run_of_ne_idle (hafter.ne_idle hresult) env fuel job

/-- A run fails, somebody leaves a file where the binary was, and the next run does not
    remove it. -/
theorem lifecycle_of_refused_run :
    ∃ s e, Session.run (flaky fun _ => false) 2 retrying (Session.start ⟨[]⟩) = some (.error e, s) ∧
      s.state = .aborted ∧
      let left := s.place "prog" (.file [])
      left.world.files.isFile "prog" = true ∧
      Session.run (flaky fun _ => false) 0 retrying left =
        some (.error (.invalidTransition "ABORTED" "RUNNING"), left) := by
  have hrun : (Session.run (flaky fun _ => false) 2 retrying (Session.start ⟨[]⟩)).any fun r =>
      match r.1 with
      | .ok _ => false
      | .error _ => (r.2.place "prog" (.file [])).world.files.isFile "prog" := by
    decide +kernel
  obtain ⟨⟨result, s⟩, hs, hfile⟩ := (Option.any_eq_true _ _).1 hrun
  cases result with
  | ok summary => cases hfile
  | error e =>
    have hlog := Session.Performs.start.step (.run hs) |>.step
      (.change (s.world.files.place "prog" (.file [])))
    obtain ⟨-, hstate, hrefused⟩ := performs_lifecycle hlog
    have haborted : s.state = .aborted := hstate
    have hprint : s.state.print = "ABORTED" := congrArg Lifecycle.print haborted
    exact ⟨s, e, hs, haborted, hfile, hprint ▸ hrefused (.error e) rfl 0⟩

end CompilerFuzz.Campaign
