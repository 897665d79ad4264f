/-
  CompilerFuzz.Proofs.Campaign.Attempts

  A history read as attempts to call tools.

    * `History.attempts` lists all of them, `History.rounds` groups them by iteration: the
      stop flag is looked at before every iteration and nowhere within one.
    * `History.beats` keeps the attempts and the progress reports, in their order.
    * `World.Made` says that between two worlds some attempts were made and nothing else
      was noted.

  A property of events and of what came before them is stated with `Throughout`.
-/
import CompilerFuzz.Campaign.History

namespace CompilerFuzz.Campaign

/-! ## Members of a list and what stands before them -/

/-- Every member of the list has the property, given the members before it. -/
def Throughout {α : Type} (P : List α → α → Prop) (l : List α) : Prop :=
  ∀ before a after, l = before ++ a :: after → P before a

theorem Throughout.nil {α : Type} {P : List α → α → Prop} : Throughout P [] := by
  intro before a after heq
  exact absurd heq.symm (List.append_ne_nil_of_right_ne_nil _ (List.cons_ne_nil _ _))

theorem Throughout.concat {α : Type} {P : List α → α → Prop} {l : List α} {last : α}
    (h : Throughout P l) (hlast : P l last) : Throughout P (l ++ [last]) := by
  intro before a after heq
  -- the member is the last one, or stands in the list before it
  obtain rfl | ⟨after, b, rfl⟩ := List.eq_nil_or_concat after
  · obtain ⟨rfl, hsame⟩ := List.append_inj' heq rfl
    exact List.head_eq_of_cons_eq hsame ▸ hlast
  · rw [List.concat_eq_append, ← List.cons_append, ← List.append_assoc] at heq
    exact h before a after (List.append_inj' heq rfl).1

/-! ## Attempts -/

/-- An attempt to call a tool, and what became of it. -/
structure Attempt where
  call : Invocation
  result : CallResult
  deriving DecidableEq, Repr

namespace Attempt

/-- How the tool ended, if it was started at all. -/
def exit? (a : Attempt) : Option Exit :=
  match a.result with
  | .noOutput _ | .notStarted _ => none
  | .ended exit => some exit

/-- Was the tool started? -/
def started (a : Attempt) : Bool := a.exit?.isSome

/-- Did the tool exit with status zero? -/
def succeeded (a : Attempt) : Bool := a.exit?.any fun exit => exit.status == some 0

/-- Is it the generator that was to be called? -/
def generates (a : Attempt) : Bool := a.call.step == .generate

/-- A run of the generator, whatever its end. -/
def isGeneration (a : Attempt) : Bool := a.generates && a.started

/-- A run of the generator that did not exit with status zero. -/
def isFailedGeneration (a : Attempt) : Bool := a.isGeneration && !a.succeeded

/-- A run of the generator that exited with status zero. -/
def isProgram (a : Attempt) : Bool := a.generates && a.succeeded

/-- The error that an attempt without success is reported as. -/
inductive Reported : Attempt → CampaignError → Prop
  | noOutput {call path cause} (h : call.output = .file path) :
      Reported ⟨call, .noOutput cause⟩ (.io path cause)
  | notStarted {call cause} :
      Reported ⟨call, .notStarted cause⟩ (.spawn call.step call.program cause)
  | generator {call exit} (h : call.step = .generate) (hs : exit.status ≠ some 0) :
      Reported ⟨call, .ended exit⟩ (.generator exit.status (Outcome.stderrText exit.stderr))
  | toolchain {call exit} (h : call.step ≠ .generate) (hs : exit.status ≠ some 0) :
      Reported ⟨call, .ended exit⟩
        (.toolchain call.step exit.status (Outcome.stderrText exit.stderr))

theorem not_succeeded_of_not_started {a : Attempt} (h : a.started = false) :
    a.succeeded = false := by
  unfold started at h
  unfold succeeded
  cases he : a.exit? with
  | none => rfl
  | some exit =>
    rw [he] at h
    cases h

/-- An attempt is reported as one error only. -/
theorem Reported.unique {a : Attempt} {e e' : CampaignError} (h : a.Reported e)
    (h' : a.Reported e') : e = e' := by
  -- what became of the attempt and its step tell the error
  cases h with
  | noOutput hpath =>
    cases h' with
    | noOutput hpath' =>
      rw [hpath] at hpath'
      cases hpath'
      rfl
  | notStarted =>
    cases h' with
    | notStarted => rfl
  | generator hstep _ =>
    cases h' with
    | generator _ _ => rfl
    | toolchain hstep' _ => exact absurd hstep hstep'
  | toolchain hstep _ =>
    cases h' with
    | generator hstep' _ => exact absurd hstep' hstep
    | toolchain _ _ => rfl

end Attempt

/-! ## Attempts in the order of a history -/

/-- The attempt that an event notes. -/
def Event.attempt? : Event → Option Attempt
  | .call invocation _ result => some ⟨invocation, result⟩
  | .reading _ | .stopCheck _ | .update .. | .finish .. => none

/-- All attempts, oldest first. -/
def History.attempts (h : History) : List Attempt := h.filterMap Event.attempt?

/-- What can be seen of a campaign from outside. -/
inductive Beat
  | attempt (a : Attempt)
  | update (executed : Nat)
  | finish (executed : Nat)
  deriving DecidableEq, Repr

/-- What can be seen of an event. -/
def Event.beat? : Event → Option Beat
  | .call invocation _ result => some (.attempt ⟨invocation, result⟩)
  | .update _ executed => some (.update executed)
  | .finish _ executed => some (.finish executed)
  | .reading _ | .stopCheck _ => none

/-- What can be seen of a history, in order. -/
def History.beats (h : History) : List Beat := h.filterMap Event.beat?

theorem History.attempts_append (h t : History) :
    History.attempts (h ++ t) = h.attempts ++ t.attempts :=
  List.filterMap_append

theorem History.beats_append (h t : History) : History.beats (h ++ t) = h.beats ++ t.beats :=
  List.filterMap_append

/-! ## Attempts by iteration -/

/-- Puts an event in front of attempts that are grouped already. -/
def Event.group (e : Event) (groups : List (List Attempt)) : List (List Attempt) :=
  match e with
  | .stopCheck _ => [] :: groups
  | .call invocation _ result =>
    match groups with
    | [] => [[⟨invocation, result⟩]]
    | g :: gs => (⟨invocation, result⟩ :: g) :: gs
  | .reading _ | .update .. | .finish .. => groups

namespace History

/-- The attempts before, between and after the looks at the stop flag. -/
def groups (h : History) : List (List Attempt) := h.foldr Event.group [[]]

/-- The attempts of each iteration. -/
def rounds (h : History) : List (List Attempt) := h.groups.filter fun g => !g.isEmpty

theorem groups_ne_nil (h : History) : h.groups ≠ [] := by
  induction h with
  | nil => exact List.cons_ne_nil _ _
  | cons e h ih =>
    show Event.group e (groups h) ≠ []
    cases e with
    | stopCheck b => exact List.cons_ne_nil _ _
    | call call files result =>
      obtain ⟨g, gs, hg⟩ := List.exists_cons_of_ne_nil ih
      rw [hg]
      exact List.cons_ne_nil _ _
    | reading t => exact ih
    | update t n => exact ih
    | finish t n => exact ih

/-- A look at the stop flag closes the groups before it. -/
theorem foldr_group_nil_cons (h : History) (gs : List (List Attempt)) :
    h.foldr Event.group ([] :: gs) = h.groups ++ gs := by
  induction h with
  | nil => rfl
  | cons e h ih =>
    rw [List.foldr_cons, ih]
    show Event.group e (groups h ++ gs) = Event.group e (groups h) ++ gs
    cases e with
    | stopCheck b => rfl
    | call call files result =>
      obtain ⟨g, gs', hg⟩ := List.exists_cons_of_ne_nil (groups_ne_nil h)
      rw [hg]
      rfl
    | reading t => rfl
    | update t n => rfl
    | finish t n => rfl

theorem rounds_append_stopCheck (h t : History) (b : Bool) :
    History.rounds (h ++ .stopCheck b :: t) = h.rounds ++ t.rounds := by
  have hgroups : History.groups (h ++ .stopCheck b :: t) = h.groups ++ t.groups := by
    unfold groups
    rw [List.foldr_append, List.foldr_cons]
    exact foldr_group_nil_cons h _
  unfold rounds
  rw [hgroups, List.filter_append]

/-- A look at the stop flag alone is no iteration. -/
theorem rounds_concat_stopCheck (h : History) (b : Bool) :
    History.rounds (h ++ [.stopCheck b]) = h.rounds :=
  (rounds_append_stopCheck h [] b).trans (List.append_nil _)

/-- Events that note no attempt and no look at the stop flag leave the iterations alone. -/
theorem rounds_append_of_groups_eq {t : History} (h : History) (ht : t.groups = [[]]) :
    History.rounds (h ++ t) = h.rounds := by
  unfold rounds groups at *
  rw [List.foldr_append, ht]

/-- The iterations together hold all attempts. -/
theorem flatten_rounds (h : History) : h.rounds.flatten = h.attempts := by
  -- the groups hold all attempts, and dropping empty groups loses none
  have hgroups : h.groups.flatten = h.attempts := by
    induction h with
    | nil => rfl
    | cons e h ih =>
      show (Event.group e (groups h)).flatten = _
      cases e with
      | stopCheck b => exact ih
      | call call files result =>
        obtain ⟨g, gs, hg⟩ := List.exists_cons_of_ne_nil (groups_ne_nil h)
        rw [hg] at ih ⊢
        show ⟨call, result⟩ :: (g :: gs).flatten = _
        rw [ih]
        rfl
      | reading t => exact ih
      | update t n => exact ih
      | finish t n => exact ih
  rw [rounds, List.flatten_filter_not_isEmpty, hgroups]

end History

/-! ## Worlds between which attempts were made -/

/-- The event that notes an attempt, with the files that its tool found. -/
def Attempt.note (a : Attempt × Files.Tree) : Event := .call a.1.call a.2 a.1.result

theorem beats_map_note (notes : List (Attempt × Files.Tree)) :
    History.beats (notes.map Attempt.note) = (notes.map Prod.fst).map .attempt := by
  unfold History.beats
  rw [List.filterMap_map, List.map_map]
  exact congrFun List.filterMap_eq_map' notes

/-- Attempts alone are one group. -/
theorem groups_map_note (notes : List (Attempt × Files.Tree)) :
    History.groups (notes.map Attempt.note) = [notes.map Prod.fst] := by
  induction notes with
  | nil => rfl
  | cons a notes ih =>
    show Event.group (Attempt.note a) (History.groups (notes.map Attempt.note)) = _
    rw [ih]
    rfl

/-- From one world to another the given attempts were made, and nothing else was noted. -/
def World.Made (w : World) (as : List Attempt) (w' : World) : Prop :=
  ∃ notes : List (Attempt × Files.Tree),
    w'.history = w.history ++ notes.map Attempt.note ∧ notes.map Prod.fst = as

namespace World.Made

variable {w w' w'' : World} {as bs : List Attempt}

theorem trans (h : w.Made as w') (h' : w'.Made bs w'') : w.Made (as ++ bs) w'' := by
  obtain ⟨notes, hw, has⟩ := h
  obtain ⟨notes', hw', hbs⟩ := h'
  refine ⟨notes ++ notes', ?_, ?_⟩
  · rw [hw', hw, List.append_assoc, ← List.map_append]
  · rw [List.map_append, has, hbs]

/-- What is seen between the two worlds is the attempts. -/
theorem beats_eq (h : w.Made as w') :
    w'.history.beats = w.history.beats ++ as.map .attempt := by
  obtain ⟨notes, hw, has⟩ := h
  rw [hw, History.beats_append, beats_map_note, has]

theorem attempts_eq (h : w.Made as w') : w'.history.attempts = w.history.attempts ++ as := by
  obtain ⟨notes, hw, has⟩ := h
  have hnotes : History.attempts (notes.map Attempt.note) = as := by
    unfold History.attempts
    rw [List.filterMap_map, ← has]
    exact congrFun List.filterMap_eq_map' notes
  rw [hw, ← hnotes]
  exact History.attempts_append _ _

/-- The two worlds tell which attempts were made between them. -/
theorem unique (h : w.Made as w') (h' : w.Made bs w') : as = bs :=
  List.append_cancel_left (h.attempts_eq.symm.trans h'.attempts_eq)

/-- Attempts right after a look at the stop flag are one iteration. -/
theorem rounds_eq {b : Bool} (h : (w.log (.stopCheck b)).Made as w') (hne : as ≠ []) :
    w'.history.rounds = w.history.rounds ++ [as] := by
  obtain ⟨notes, hw, has⟩ := h
  have hround : History.rounds (notes.map Attempt.note) = [as] := by
    unfold History.rounds
    rw [groups_map_note, has, List.filter_cons_of_pos (by simpa using hne), List.filter_nil]
  rw [hw]
  show History.rounds ((w.history ++ [.stopCheck b]) ++ notes.map Attempt.note) = _
  rw [List.append_assoc, ← hround]
  exact History.rounds_append_stopCheck _ _ b

theorem grows (h : w.Made as w') : w.history <+: w'.history := by
  obtain ⟨notes, hw, -⟩ := h
  rw [hw]
  exact List.prefix_append _ _

end World.Made

end CompilerFuzz.Campaign
