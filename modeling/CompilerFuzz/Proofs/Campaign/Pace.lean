/-
  CompilerFuzz.Proofs.Campaign.Pace

  When the iterations of a run begin. Iteration by iteration, the clock is read, the stop
  flag is looked at, and tools are called: `Timetable` says how the three lie in a history,
  and from it follows which iterations have begun (`Timetable.begun_iff`). It holds at every
  pause and after every run, since each turn of the loop adds one iteration, one reading
  and one look.
-/
import CompilerFuzz.Proofs.Campaign.Signals
import CompilerFuzz.Proofs.Campaign.StepGrammar

namespace CompilerFuzz.Campaign

open CompilerFuzz.Files

/-! ## Iterations, readings and looks at the flag -/

namespace Job

variable (job : Job) (h : History) (i : Nat)

/-- Iteration `i` has begun: its first attempt is a call of the generator. -/
def Begun : Prop :=
  ∃ a as, h.rounds[i]? = some (a :: as) ∧ a.call = job.generation

/-- The iterations before iteration `i` have ended without an error. -/
def Ended : Prop :=
  ∀ j < i, ∃ as executed, h.rounds[j]? = some as ∧ Round job as (.ok executed)

/-- The clock readings before reading `i` are below the budget. -/
def InBudget : Prop :=
  ∀ j < i, ∃ elapsed, h.readings[j]? = some elapsed ∧ elapsed < job.plan.budget

end Job

/-- How the iterations of a history lie between its clock readings and its looks at the
    stop flag. -/
structure Timetable (job : Job) (h : History) : Prop where
  begun : ∀ i < h.rounds.length, job.Begun h i
  ended : ∀ i < h.rounds.length, job.Ended h i
  inBudget : job.InBudget h h.rounds.length
  unset : ∀ i < h.rounds.length, h.checks[i]? = some false
  /-- Nothing shows that one more iteration should have begun. -/
  complete : job.Ended h h.rounds.length → h.checks[h.rounds.length]? ≠ some false

namespace Timetable

variable {job : Job} {h t : History}

/-- An iteration has begun exactly if those before it have ended without an error, the clock
    has shown less than the budget up to it, and the look at the flag before it found the
    flag unset. -/
theorem begun_iff (ht : Timetable job h) (i : Nat) :
    job.Begun h i ↔ job.Ended h i ∧ job.InBudget h (i + 1) ∧ h.checks[i]? = some false := by
  constructor
  · rintro ⟨a, as, hround, -⟩
    have hlt : i < h.rounds.length := (List.getElem?_eq_some_iff.1 hround).1
    exact ⟨ht.ended i hlt, fun j hj => ht.inBudget j (by omega), ht.unset i hlt⟩
  · rintro ⟨hended, -, hunset⟩
    rcases Nat.lt_trichotomy i h.rounds.length with hlt | rfl | hgt
    · exact ht.begun i hlt
    · exact absurd hunset (ht.complete hended)
    · -- there is no iteration that could have ended before this one
      obtain ⟨as, _, hround, -⟩ := hended h.rounds.length hgt
      rw [List.getElem?_eq_none (Nat.le_refl _)] at hround
      cases hround

/-- Once the clock shows the budget spent, no further iteration begins. -/
theorem length_rounds_le (ht : Timetable job h) {k : Nat} {elapsed : Span}
    (hk : h.readings[k]? = some elapsed) (hspent : ¬ elapsed < job.plan.budget) :
    h.rounds.length ≤ k := by
  refine Nat.le_of_not_lt fun hlt => ?_
  obtain ⟨elapsed', hk', hbelow⟩ := ht.inBudget k hlt
  rw [hk] at hk'
  exact hspent (Option.some.inj hk' ▸ hbelow)

theorem attempts_eq_nil_of_budget_eq_zero (ht : Timetable job h)
    (hzero : job.plan.budget = .zero) : h.attempts = [] := by
  have hnone : h.rounds.length = 0 := by
    refine Nat.eq_zero_of_not_pos fun hpos => ?_
    obtain ⟨elapsed, -, hbelow⟩ := ht.inBudget 0 hpos
    rw [hzero] at hbelow
    exact Nat.not_lt_zero _ hbelow
  rw [← History.flatten_rounds, List.length_eq_zero_iff.1 hnone]
  rfl

end Timetable

/-! ## The first attempt of an iteration -/

theorem Generation.call_eq {job : Job} {limit : Nat} {as : List Attempt}
    {result : Except CampaignError Bool} (h : Generation job limit as result) :
    ∀ a ∈ as, a.call = job.generation := by
  have hfailed : ∀ {failed : List Attempt}, (∀ a ∈ failed, job.Failed a) →
      ∀ a ∈ failed, a.call = job.generation := fun hf a ha => (hf a ha).1
  cases h with
  | fresh hf _ ha =>
    exact List.forall_mem_append.2 ⟨hfailed hf, List.forall_mem_singleton.2 ha.1⟩
  | skipped hf _ _ => exact hfailed hf
  | exhausted hf _ ha _ _ =>
    exact List.forall_mem_append.2 ⟨hfailed hf, List.forall_mem_singleton.2 ha.1⟩
  | unstarted hf _ ha _ _ =>
    exact List.forall_mem_append.2 ⟨hfailed hf, List.forall_mem_singleton.2 ha⟩

/-- An iteration begins with a call of the generator. -/
theorem Round.begins {job : Job} {as : List Attempt} {result : Except CampaignError Bool}
    (h : Round job as result) : ∃ a rest, as = a :: rest ∧ a.call = job.generation := by
  have hgeneration : ∀ {as bs : List Attempt} {result : Except CampaignError Bool},
      Generation job job.plan.policy.limit as result →
      ∃ a rest, as ++ bs = a :: rest ∧ a.call = job.generation := by
    intro as bs result hg
    obtain ⟨a, rest, rfl⟩ := List.exists_cons_of_ne_nil hg.ne_nil
    exact ⟨a, rest ++ bs, rfl, hg.call_eq a List.mem_cons_self⟩
  cases h with
  | skipped hg => exact List.append_nil as ▸ hgeneration hg
  | ungenerated hg => exact List.append_nil as ▸ hgeneration hg
  | executed hg _ => exact hgeneration hg
  | broken hg _ => exact hgeneration hg

/-- What an iteration attempts tells whether it ends with an error. -/
theorem Round.not_ok_of_error {job : Job} {as : List Attempt} {e : CampaignError}
    (h : Round job as (.error e)) (executed : Bool) : ¬ Round job as (.ok executed) := by
  obtain ⟨before, a, rfl, -, hends, -⟩ := h.endsWith
  exact fun hok => hok.quiet before.length a List.getElem?_concat_length hends

/-! ## Timetables of runs -/

section OfRounds

variable {job : Job} {h : History} {ended broken : List (List Attempt)} {ending : Ending}

theorem Closing.length_le (hc : Closing job broken ending) : broken.length ≤ 1 := by
  cases hc with
  | none _ => exact Nat.zero_le 1
  | broken _ _ => exact Nat.le_refl 1

theorem begun_of_rounds (hr : h.rounds = ended ++ broken)
    (hok : ∀ as ∈ ended, ∃ b, Round job as (.ok b)) (hc : Closing job broken ending) :
    ∀ i < h.rounds.length, job.Begun h i := by
  have hround : ∀ as ∈ h.rounds, ∃ result, Round job as result := by
    rw [hr, List.forall_mem_append]
    constructor
    · intro as has
      obtain ⟨b, hround⟩ := hok as has
      exact ⟨_, hround⟩
    · cases hc with
      | none _ => exact List.forall_mem_nil _
      | broken hround _ => exact List.forall_mem_singleton.2 ⟨_, hround⟩
  intro i hi
  obtain ⟨_, hmade⟩ := hround h.rounds[i] (List.getElem_mem hi)
  obtain ⟨a, rest, heq, hcall⟩ := hmade.begins
  exact ⟨a, rest, heq ▸ List.getElem?_eq_getElem hi, hcall⟩

/-- Before the last iteration all have ended without an error. -/
theorem ended_of_rounds (hr : h.rounds = ended ++ broken)
    (hok : ∀ as ∈ ended, ∃ b, Round job as (.ok b)) (hc : Closing job broken ending) :
    ∀ i < h.rounds.length, job.Ended h i := by
  intro i hi j hj
  have hlen := hc.length_le
  rw [hr, List.length_append] at hi
  have hlt : j < ended.length := by omega
  obtain ⟨executed, hround⟩ := hok ended[j] (List.getElem_mem hlt)
  refine ⟨ended[j], executed, ?_, hround⟩
  rw [hr, List.getElem?_append_left hlt]
  exact List.getElem?_eq_getElem hlt

theorem broken_eq_nil_of_ended (hr : h.rounds = ended ++ broken) (hc : Closing job broken ending)
    (hended : job.Ended h h.rounds.length) : broken = [] := by
  cases hc with
  | none _ => rfl
  | @broken as e _ hround _ =>
    have hlt : ended.length < h.rounds.length := by
      rw [hr, List.length_append]
      exact Nat.lt_succ_self _
    obtain ⟨as', executed, hget, hok⟩ := hended ended.length hlt
    rw [hr, List.getElem?_concat_length] at hget
    exact absurd (Option.some.inj hget ▸ hok) (hround.not_ok_of_error executed)

/-- A history with one reading below the budget and one look at an unset flag for each
    iteration, and then perhaps further readings and looks. -/
theorem Timetable.of_rounds (earlier last : List Span) (rest : List Bool)
    (hr : h.rounds = ended ++ broken) (hok : ∀ as ∈ ended, ∃ b, Round job as (.ok b))
    (hc : Closing job broken ending) (hreadings : h.readings = earlier ++ last)
    (hlen : earlier.length = h.rounds.length)
    (hbelow : ∀ elapsed ∈ earlier, elapsed < job.plan.budget)
    (hchecks : h.checks = List.replicate h.rounds.length false ++ rest)
    (hrest : broken = [] → rest.head? ≠ some false) : Timetable job h := by
  refine ⟨begun_of_rounds hr hok hc, ended_of_rounds hr hok hc, ?_, ?_, ?_⟩
  · intro j hj
    have hlt : j < earlier.length := hlen ▸ hj
    refine ⟨earlier[j], ?_, hbelow _ (List.getElem_mem hlt)⟩
    rw [hreadings, List.getElem?_append_left hlt]
    exact List.getElem?_eq_getElem hlt
  · intro i hi
    have hlt : i < (List.replicate h.rounds.length false).length := by
      rwa [List.length_replicate]
    rw [hchecks, List.getElem?_append_left hlt]
    exact List.getElem?_replicate_of_lt hi
  · -- if all iterations have ended there is no broken one, and what follows are further looks
    intro hended
    rw [hchecks, List.getElem?_append_right (Nat.le_of_eq List.length_replicate),
      List.length_replicate, Nat.sub_self, ← List.head?_eq_getElem?]
    exact hrest (broken_eq_nil_of_ended hr hc hended)

end OfRounds

/-- At a pause the clock has been read once for each iteration and once more, and every look
    at the stop flag was followed by an iteration. -/
structure Pause.OnTime (job : Job) (p : Pause) : Prop where
  readings : ∃ earlier, p.world.history.readings = earlier ++ [p.elapsed] ∧
    earlier.length = p.world.history.rounds.length ∧
    ∀ elapsed ∈ earlier, elapsed < job.plan.budget
  checks : p.world.history.checks = List.replicate p.world.history.rounds.length false

section Runs

variable {env : Environment} {job : Job} {files : Tree}

/-- What the next iteration adds to the readings and looks of a history. -/
theorem World.Made.signals {p : Pause} {w : World} {as : List Attempt}
    (hm : (p.world.log (.stopCheck false)).Made as w) :
    w.history.readings = p.world.history.readings ∧
      w.history.checks = p.world.history.checks ++ [false] := by
  rw [hm.readings_eq, hm.checks_eq]
  constructor
  · show History.readings (p.world.history ++ [_]) = _
    rw [History.readings_append]
    exact List.append_nil _
  · exact History.checks_append _ _

theorem Reached.onTime {p : Pause} (h : Reached env job files p) : p.OnTime job := by
  refine h.invariant (P := Pause.OnTime job) ?_ ?_
  · intro w hw
    refine ⟨⟨[], ?_, ?_, List.forall_mem_nil _⟩, ?_⟩
    · show History.readings ((w.history ++ [_]) ++ [_]) = [] ++ [env.elapsed w.history]
      rw [hw]
      rfl
    · rw [firstPause_rounds hw]
      rfl
    · rw [firstPause_rounds hw]
      show History.checks ((w.history ++ [_]) ++ [_]) = _
      rw [hw]
      rfl
  · intro p q hp hturn
    obtain ⟨earlier, hreadings, hlen, hbelow⟩ := hp.readings
    obtain ⟨as, _, _, -, -, hrounds, -⟩ := next_cases hturn
    cases Turned.of_eq hturn with
    | @next _ _ w hbudget _ hm _ =>
      obtain ⟨hreadings', hchecks'⟩ := hm.signals
      -- the reading that let the iteration begin is now one of the earlier ones
      refine ⟨⟨earlier ++ [p.elapsed], ?_, ?_, ?_⟩, ?_⟩
      · show History.readings ((w.history ++ [_]) ++ [_]) = _
        rw [History.readings_append, History.readings_append, hreadings', hreadings]
        exact List.append_nil _
      · rw [hrounds, List.length_append, List.length_append, hlen]
        rfl
      · exact List.forall_mem_append.2 ⟨hbelow, List.forall_mem_singleton.2 hbudget⟩
      · rw [hrounds, List.length_append]
        show History.checks ((w.history ++ [_]) ++ [_]) = _
        rw [History.checks_append, History.checks_append, hchecks', hp.checks]
        show ((_ ++ [false]) ++ []) ++ [] = _
        rw [List.append_nil, List.append_nil]
        exact List.replicate_succ'.symm

theorem Reached.timetable {p : Pause} (h : Reached env job files p) :
    Timetable job p.world.history := by
  obtain ⟨earlier, hreadings, hlen, hbelow⟩ := h.onTime.readings
  have hchecks := h.onTime.checks
  rw [← List.append_nil (List.replicate _ _)] at hchecks
  exact .of_rounds earlier [p.elapsed] [] (List.append_nil _).symm h.round_ok closing_nil hreadings
    hlen hbelow hchecks fun _ => nofun

theorem timetable_nil : Timetable job [] :=
  .of_rounds [] [] [] (List.append_nil _).symm (List.forall_mem_nil _) closing_nil rfl rfl
    (List.forall_mem_nil _) rfl fun _ => nofun

/-- The flag is found set between two iterations. -/
theorem Reached.timetable_stopped {p : Pause} (hp : Reached env job files p) :
    Timetable job (p.world.history ++ [.stopCheck true]) := by
  obtain ⟨earlier, hreadings, hlen, hbelow⟩ := hp.onTime.readings
  have hrounds := History.rounds_concat_stopCheck p.world.history true
  refine .of_rounds earlier [p.elapsed] [true] (hrounds.trans (List.append_nil _).symm)
    hp.round_ok closing_nil ?_ ?_ hbelow ?_ fun _ => nofun
  · rw [History.readings_append, hreadings]
    exact List.append_nil _
  · rw [hrounds, hlen]
  · rw [hrounds, History.checks_append, hp.onTime.checks]
    rfl

/-- An iteration ends with an error, and the flag is looked at once more. -/
theorem Reached.timetable_broken {p : Pause} (hp : Reached env job files p)
    (hbudget : p.elapsed < job.plan.budget) {as : List Attempt} {w : World}
    (hm : (p.world.log (.stopCheck false)).Made as w) {e : CampaignError}
    (hr : Round job as (.error e)) (stop : Bool) :
    Timetable job (w.history ++ [.stopCheck stop]) := by
  obtain ⟨earlier, hreadings, hlen, hbelow⟩ := hp.onTime.readings
  obtain ⟨hreadings', hchecks'⟩ := hm.signals
  have hrounds : History.rounds (w.history ++ [.stopCheck stop]) = p.world.history.rounds ++ [as] := by
    rw [← hm.rounds_eq hr.ne_nil]
    exact History.rounds_concat_stopCheck _ _
  -- the reading of this pause belongs to the iteration, the last look to none
  refine .of_rounds (earlier ++ [p.elapsed]) [] [stop] hrounds hp.round_ok
    (.broken hr (.inr rfl)) ?_ ?_ ?_ ?_ nofun
  · rw [History.readings_append, hreadings', hreadings]
    rfl
  · rw [hrounds, List.length_append, List.length_append, hlen]
    rfl
  · exact List.forall_mem_append.2 ⟨hbelow, List.forall_mem_singleton.2 hbudget⟩
  · rw [hrounds, List.length_append, List.length_singleton, List.replicate_succ',
      History.checks_append, hchecks', hp.onTime.checks]
    rfl

theorem Complete.timetable {c : Course} (h : Complete env job files c) :
    Timetable job c.world.history := by
  cases h with
  | unprepared hprepare => exact (prepare_error hprepare).1 ▸ timetable_nil
  | @finished p _ hp hturn =>
    cases Turned.of_eq hturn with
    | spent _ => exact hp.timetable
    | stopped _ _ => exact hp.timetable_stopped
    | broken hbudget _ hm hr => exact hp.timetable_broken hbudget hm hr _

/-- Events that are neither attempts nor looks at the flag leave a timetable as it is. -/
theorem Timetable.append {h t : History} (ht : Timetable job h) (hgroups : t.groups = [[]])
    (hchecks : t.checks = []) : Timetable job (h ++ t) := by
  -- iterations and looks are what they were, so only readings are added, behind the others
  have hrounds : History.rounds (h ++ t) = h.rounds :=
    History.rounds_append_of_groups_eq h hgroups
  have hsame : History.checks (h ++ t) = h.checks := by
    rw [History.checks_append, hchecks, List.append_nil]
  have hbegun : ∀ i, job.Begun (h ++ t) i ↔ job.Begun h i := by
    intro i
    unfold Job.Begun
    rw [hrounds]
  have hended : ∀ i, job.Ended (h ++ t) i ↔ job.Ended h i := by
    intro i
    unfold Job.Ended
    rw [hrounds]
  refine ⟨?_, ?_, ?_, ?_, ?_⟩ <;> rw [hrounds]
  · exact fun i hi => (hbegun i).2 (ht.begun i hi)
  · exact fun i hi => (hended i).2 (ht.ended i hi)
  · intro j hj
    obtain ⟨elapsed, hj, hbelow⟩ := ht.inBudget j hj
    refine ⟨elapsed, ?_, hbelow⟩
    rw [History.readings_append, List.getElem?_append_left (List.getElem?_eq_some_iff.1 hj).1]
    exact hj
  · exact hsame ▸ ht.unset
  · exact fun h => hsame ▸ ht.complete ((hended _).1 h)

/-- What can be seen of the first run of a campaign: its history at every pause, and the one
    that it leaves when it returns. -/
inductive Seen (env : Environment) (job : Job) (files : Tree) : History → Prop
  | paused {p} (hp : Reached env job files p) : Seen env job files p.world.history
  | returned {result s} (h : Returns env job files result s) : Seen env job files s.world.history

theorem Complete.seen {c : Course} (h : Complete env job files c) :
    Seen env job files (c.closed env job).world.history := .returned h.returns

theorem Complete.timetable_closed {c : Course} (h : Complete env job files c) :
    Timetable job (c.closed env job).world.history := h.timetable.append rfl rfl

theorem Seen.timetable {h : History} (hs : Seen env job files h) : Timetable job h := by
  cases hs with
  | paused hp => exact hp.timetable
  | returned hreturns =>
    obtain ⟨_, hrun⟩ := hreturns
    obtain ⟨c, hcomplete, -, rfl⟩ := run_start_closed hrun
    exact hcomplete.timetable_closed

theorem Seen.due {h : History} (hs : Seen env job files h) : h.Due env := by
  cases hs with
  | paused hp => exact hp.due
  | returned hreturns =>
    obtain ⟨_, hrun⟩ := hreturns
    obtain ⟨c, hcomplete, -, rfl⟩ := run_start_closed hrun
    exact Course.due_closed hcomplete.due

/-- Nothing is attempted unless the directory of the source file can be made. -/
theorem Seen.prepared {h : History} (hs : Seen env job files h) {i : Nat} (hbegun : job.Begun h i) :
    job.Prepared files := by
  cases hs with
  | paused hp => exact hp.prepared
  | returned hreturns =>
    obtain ⟨_, hrun⟩ := hreturns
    obtain ⟨c, hcomplete, -, rfl⟩ := run_start_closed hrun
    cases hcomplete with
    | finished hp _ => exact hp.prepared
    | @unprepared e w hprepare =>
      obtain ⟨a, as, hround, -⟩ := hbegun
      have hnone : (Course.closed env job ⟨.failed e, .zero, w⟩).world.history.rounds = [] := by
        show History.rounds (w.history ++ [_, _]) = []
        rw [(prepare_error hprepare).1]
        rfl
      rw [hnone] at hround
      cases hround

/-- When the iterations that a history shows have begun. -/
structure Paced (env : Environment) (job : Job) (files : Tree) (h : History) : Prop where
  begun_iff : ∀ i, job.Begun h i ↔
    job.Prepared files ∧ job.Ended h i ∧ job.InBudget h (i + 1) ∧
    h.checks[i]? = some false
  /-- The readings and looks are what the clock and the flag showed at their time. -/
  due : h.Due env
  /-- Whatever is called although the flag is set belongs to an iteration that started before
      the flag was set. -/
  stopped : ∀ before mid call found result rest,
    h = before ++ mid ++ .call call found result :: rest → env.stop before = true →
    mid.checks = [] ∧ before.checks.getLast? = some false
  stopped_before : env.stop [] = true → h.attempts = []
  zero_budget : job.plan.budget = .zero → h.attempts = []
  spent : ∀ k elapsed, h.readings[k]? = some elapsed → ¬ elapsed < job.plan.budget →
    h.rounds.length ≤ k

theorem Seen.paced {h : History} (hs : Seen env job files h) (hlatched : env.Latched) :
    Paced env job files h := by
  have ht : Timetable job h := hs.timetable
  have hstopped : ∀ before mid call found result rest,
      h = before ++ mid ++ .call call found result :: rest → env.stop before = true →
      mid.checks = [] ∧ before.checks.getLast? = some false := by
    rintro before mid call found result rest rfl hset
    exact hs.due.call_after_stop hlatched hset
  refine ⟨fun i => ⟨fun hbegun => ⟨hs.prepared hbegun, (ht.begun_iff i).1 hbegun⟩,
    fun hbegun => (ht.begun_iff i).2 hbegun.2⟩, hs.due, hstopped, fun hset => ?_,
    ht.attempts_eq_nil_of_budget_eq_zero, fun k elapsed => ht.length_rounds_le⟩
  -- before the first event there was no look at the flag that a call could rest on
  refine List.filterMap_eq_nil_iff.2 fun e he => ?_
  obtain ⟨early, late, rfl⟩ := List.append_of_mem he
  cases e with
  | call call found result =>
    have hnone := (hstopped [] early call found result late rfl hset).2
    cases hnone
  | reading elapsed => rfl
  | stopCheck requested => rfl
  | update elapsed executed => rfl
  | finish elapsed executed => rfl

/-- While the budget lasts and the flag is unset, the next iteration begins. -/
theorem Reached.begins {p : Pause} (hp : Reached env job files p)
    (hbudget : p.elapsed < job.plan.budget) (hunset : env.stop p.world.history = false) :
    ∃ h, Seen env job files h ∧ p.world.history <+: h ∧
      job.Begun h p.world.history.rounds.length := by
  have hlonger : ∀ (as : List Attempt) {h : History}, h.rounds = p.world.history.rounds ++ [as] →
      p.world.history.rounds.length < h.rounds.length := by
    intro as h hrounds
    rw [hrounds, List.length_append]
    exact Nat.lt_succ_self _
  have hgrows : ∀ {as : List Attempt} {w : World}, (p.world.log (.stopCheck false)).Made as w →
      p.world.history <+: w.history := fun hm => (List.prefix_append _ _).trans hm.grows
  -- the iteration is seen at the next pause, or in the course that it brings to its end
  cases hturn : turn env job p with
  | next q =>
    have hq : Reached env job files q := hp.next hturn
    obtain ⟨as, _, _, -, -, hrounds, -⟩ := next_cases hturn
    cases Turned.of_eq hturn with
    | next _ _ hm _ =>
      refine ⟨_, .paused hq, ?_, hq.timetable.begun _ (hlonger as hrounds)⟩
      exact ((hgrows hm).trans (List.prefix_append _ _)).trans (List.prefix_append _ _)
  | finished c =>
    have hc : Complete env job files c := .finished hp hturn
    cases Turned.of_eq hturn with
    | spent h => exact absurd hbudget h
    | stopped _ hs =>
      rw [hunset] at hs
      cases hs
    | @broken as e w _ _ hm hr =>
      refine ⟨_, hc.seen, ?_, hc.timetable_closed.begun _ (hlonger as ?_)⟩
      · exact ((hgrows hm).trans (List.prefix_append _ _)).trans (List.prefix_append _ _)
      · show History.rounds ((w.history ++ [_]) ++ [_, _]) = _ ++ [as]
        rw [History.rounds_append_of_groups_eq _ rfl, ← hm.rounds_eq hr.ne_nil]
        exact History.rounds_concat_stopCheck _ _

/-- A run that has read a spent budget off the clock returns. -/
theorem Reached.returns_of_spent {p : Pause} (hp : Reached env job files p) {k : Nat}
    {elapsed : Span} (hk : p.world.history.readings[k]? = some elapsed)
    (hspent : ¬ elapsed < job.plan.budget) :
    ∃ result s, Returns env job files result s ∧ s.world.history.rounds.length ≤ k := by
  have hle : p.world.history.rounds.length ≤ k := hp.timetable.length_rounds_le hk hspent
  obtain ⟨earlier, hreadings, hlen, -⟩ := hp.onTime.readings
  -- only the last reading of a pause can be one that shows the budget spent
  rw [hreadings, List.getElem?_append_right (hlen ▸ hle)] at hk
  have hlast : elapsed = p.elapsed :=
    (List.mem_singleton.1 (List.mem_of_getElem? hk))
  refine ⟨_, _, (Complete.finished hp (turn_of_spent (hlast ▸ hspent))).returns, ?_⟩
  show (History.rounds (p.world.history ++ [_, _])).length ≤ k
  rw [History.rounds_append_of_groups_eq _ rfl]
  exact hle

end Runs

/-- The first run of a campaign keeps to its budget and to its stop flag. -/
structure Punctual (env : Environment) (job : Job) (files : Tree) : Prop where
  paced : ∀ h, Seen env job files h → Paced env job files h
  /-- With the directory of the source file there, the run comes to its first pause. -/
  starts : job.Prepared files →
    ∃ p, Reached env job files p ∧ p.world.history.rounds = []
  /-- From a pause on, the next iteration begins if budget and flag allow it. -/
  begins : ∀ p, Reached env job files p → p.elapsed < job.plan.budget →
    env.stop p.world.history = false →
    ∃ h, Seen env job files h ∧ p.world.history <+: h ∧
      job.Begun h p.world.history.rounds.length
  /-- Once a reading of the clock shows the budget spent, the run returns, with no more
      iterations than readings before that one. -/
  returns : ∀ p, Reached env job files p → ∀ k elapsed,
    p.world.history.readings[k]? = some elapsed → ¬ elapsed < job.plan.budget →
    ∃ result s, Returns env job files result s ∧ s.world.history.rounds.length ≤ k

/-- Whatever the clock shows and the tools answer, and with a stop flag that stays set once it
    is set, no iteration of a run begins when the budget is spent or a stop is requested, and
    any other begins. A campaign that has run before attempts nothing. -/
theorem run_punctual {env : Environment} (hlatched : env.Latched) (job : Job) (files : Tree) :
    Punctual env job files ∧
    ∀ s fuel, s.state ≠ .idle → ∃ e, Session.run env fuel job s = some (.error e, s) := by
  refine ⟨⟨fun h hs => hs.paced hlatched, fun hprepared => ?_, fun p hp => hp.begins,
    fun p hp k elapsed => hp.returns_of_spent⟩, fun s fuel hs => ?_⟩
  · have hhistory := prepare_history job ⟨files, []⟩
    have hok := (prepare_eq_ok_iff job ⟨files, []⟩).2 hprepared
    generalize hw : prepare job ⟨files, []⟩ = prepared at *
    obtain ⟨result, w⟩ := prepared
    dsimp only at hok hhistory
    subst hok
    exact ⟨firstPause env w, ⟨w, hw, .refl⟩, firstPause_rounds hhistory⟩
  · exact ⟨_, run_of_ne_idle hs env fuel job⟩

/-- The flag is set while the generator runs for the second time; the iteration goes on to its
    end, and none follows. -/
theorem punctual_of_stopping_generator :
    (flaky fun h => 2 ≤ h.attempts.length).Latched ∧
    ∃ result s, Session.run (flaky fun h => 2 ≤ h.attempts.length) 2 retrying
        (Session.start ⟨[]⟩) = some (result, s) ∧
      s.world.history.checks = [false, true] ∧ s.world.history.attempts.length = 4 ∧
      Paced (flaky fun h => 2 ≤ h.attempts.length) retrying ⟨[]⟩ s.world.history := by
  have hlatched : (flaky fun h => 2 ≤ h.attempts.length).Latched := by
    intro h t hset
    refine decide_eq_true (Nat.le_trans (of_decide_eq_true hset) ?_)
    unfold History.attempts
    rw [List.filterMap_append, List.length_append]
    exact Nat.le_add_right _ _
  have hrun : (Session.run (flaky fun h => 2 ≤ h.attempts.length) 2 retrying
      (Session.start ⟨[]⟩)).any fun r =>
      r.2.world.history.checks == [false, true] && r.2.world.history.attempts.length == 4 := by
    decide +kernel
  obtain ⟨⟨result, s⟩, hs, hcounts⟩ := (Option.any_eq_true _ _).1 hrun
  obtain ⟨hchecks, hattempts⟩ := Bool.and_eq_true_iff.1 hcounts
  exact ⟨hlatched, result, s, hs, eq_of_beq hchecks, eq_of_beq hattempts,
    (run_punctual hlatched retrying ⟨[]⟩).1.paced _ (.returned ⟨2, hs⟩)⟩

end CompilerFuzz.Campaign
