/-
  CompilerFuzz.Proofs.Campaign.Signals

  What a run learns from its clock and its stop flag. `History.readings` and
  `History.checks` list the answers; `History.Due` says that every answer is the one the
  environment gives at that moment, and that tools are called only after a look at the flag
  that found it unset. Every turn keeps this (`Reached.due`, `Complete.due`), so a flag
  that stays set lets no further iteration call a tool (`History.Due.call_after_stop`).
-/
import CompilerFuzz.Proofs.Campaign.Loop

namespace CompilerFuzz.Campaign

open CompilerFuzz.Files

/-! ## Clock readings and looks at the flag -/

/-- The time that an event reads off the clock. -/
def Event.reading? : Event → Option Span
  | .reading elapsed => some elapsed
  | .call .. | .stopCheck _ | .update .. | .finish .. => none

/-- What a look at the stop flag finds. -/
def Event.check? : Event → Option Bool
  | .stopCheck requested => some requested
  | .call .. | .reading _ | .update .. | .finish .. => none

namespace History

/-- All clock readings, oldest first. -/
def readings (h : History) : List Span := h.filterMap Event.reading?

/-- What the looks at the stop flag found, oldest first. -/
def checks (h : History) : List Bool := h.filterMap Event.check?

theorem readings_append (h t : History) : History.readings (h ++ t) = h.readings ++ t.readings :=
  List.filterMap_append

theorem checks_append (h t : History) : History.checks (h ++ t) = h.checks ++ t.checks :=
  List.filterMap_append

end History

/-- Attempts are neither clock readings nor looks at the flag. -/
theorem readings_map_note (notes : List (Attempt × Tree)) :
    History.readings (notes.map Attempt.note) = [] :=
  List.filterMap_eq_nil_iff.2 (List.forall_mem_map.2 fun _ _ => rfl)

theorem checks_map_note (notes : List (Attempt × Tree)) :
    History.checks (notes.map Attempt.note) = [] :=
  List.filterMap_eq_nil_iff.2 (List.forall_mem_map.2 fun _ _ => rfl)

section Made

variable {w w' : World} {as : List Attempt}

theorem World.Made.readings_eq (h : w.Made as w') : w'.history.readings = w.history.readings := by
  obtain ⟨notes, hw, -⟩ := h
  rw [hw, History.readings_append, readings_map_note, List.append_nil]

theorem World.Made.checks_eq (h : w.Made as w') : w'.history.checks = w.history.checks := by
  obtain ⟨notes, hw, -⟩ := h
  rw [hw, History.checks_append, checks_map_note, List.append_nil]

end Made

/-! ## Events and what came before them -/

/-- What an event owes to the history before it. -/
def Event.Due (env : Environment) (before : History) : Event → Prop
  | .reading elapsed => elapsed = env.elapsed before
  | .stopCheck requested => requested = env.stop before
  | .call .. => before.checks.getLast? = some false
  | .update .. | .finish .. => True

/-- Every event of the history is due to what came before it. -/
def History.Due (env : Environment) (h : History) : Prop :=
  Throughout (fun before e => e.Due env before) h

/-- After a look that found the flag unset tools may be called. -/
theorem History.Due.append_notes {env : Environment} {h : History} (hd : h.Due env)
    (hlast : h.checks.getLast? = some false) (notes : List (Attempt × Tree)) :
    History.Due env (h ++ notes.map Attempt.note) := by
  induction notes generalizing h with
  | nil =>
    rw [List.map_nil, List.append_nil]
    exact hd
  | cons a notes ih =>
    rw [List.map_cons, List.append_cons]
    refine ih (hd.concat hlast) ?_
    rw [History.checks_append]
    show (h.checks ++ []).getLast? = some false
    rw [List.append_nil]
    exact hlast

section Steps

variable {env : Environment} {w w' : World} {as : List Attempt}

theorem World.due_check (h : w.history.Due env) :
    (w.log (.stopCheck (env.stop w.history))).history.Due env := h.concat rfl

theorem World.due_progress (h : w.history.Due env) (executed : Nat) :
    (showProgress env executed w).2.history.Due env := by
  have hreading : (w.log (.reading (env.elapsed w.history))).history.Due env := h.concat rfl
  exact hreading.concat trivial

/-- An iteration that starts when the flag is found unset. -/
theorem World.Made.due (hm : (w.log (.stopCheck false)).Made as w') (h : w.history.Due env)
    (hs : env.stop w.history = false) : w'.history.Due env := by
  obtain ⟨notes, hw, -⟩ := hm
  rw [hw]
  refine (hs ▸ World.due_check h : (w.log (.stopCheck false)).history.Due env).append_notes ?_ notes
  show (History.checks (w.history ++ [_])).getLast? = some false
  rw [History.checks_append]
  exact List.getLast?_concat

end Steps

variable {env : Environment} {job : Job} {files : Tree}

theorem Reached.due {p : Pause} (h : Reached env job files p) : p.world.history.Due env := by
  refine h.invariant (P := fun p => p.world.history.Due env) ?_ ?_
  · intro w hw
    exact World.due_progress (hw ▸ .nil) 0
  · intro p q hp hturn
    cases Turned.of_eq hturn with
    | next _ hs hm _ => exact World.due_progress (hm.due hp hs) _

theorem Complete.due {c : Course} (h : Complete env job files c) : c.world.history.Due env := by
  cases h with
  | unprepared hprepare => exact (prepare_error hprepare).1 ▸ .nil
  | @finished p _ hp hturn =>
    cases Turned.of_eq hturn with
    | spent _ => exact hp.due
    | stopped _ hs => exact hs ▸ World.due_check hp.due
    | broken _ hs hm _ => exact World.due_check (hm.due hp.due hs)

theorem Course.due_closed {c : Course} (h : c.world.history.Due env) :
    (c.closed env job).world.history.Due env := by
  have hreading : History.Due env (c.world.history ++ [.reading (env.elapsed c.world.history)]) :=
    h.concat rfl
  show History.Due env (c.world.history ++ [_, _])
  rw [List.append_cons]
  exact hreading.concat trivial

/-! ## A flag that stays set -/

/-- Once the stop flag is set, it stays set. -/
def Environment.Latched (env : Environment) : Prop :=
  ∀ h t, env.stop h = true → env.stop (h ++ t) = true

/-- A tool that is called although the flag is set already belongs to an iteration that
    started before the flag was set. -/
theorem History.Due.call_after_stop {before mid rest : History} {call : Invocation}
    {found : Tree} {result : CallResult} (hlatched : env.Latched)
    (hd : History.Due env (before ++ mid ++ .call call found result :: rest))
    (hs : env.stop before = true) :
    mid.checks = [] ∧ before.checks.getLast? = some false := by
  have hlast : (History.checks (before ++ mid)).getLast? = some false := hd _ _ _ rfl
  rw [History.checks_append, List.getLast?_append] at hlast
  cases hmid : mid.checks.getLast? with
  | none =>
    rw [hmid, Option.none_or] at hlast
    exact ⟨List.getLast?_eq_none_iff.1 hmid, hlast⟩
  | some b =>
    -- the last look before the call found the flag unset, after it had been set
    rw [hmid, Option.some_or] at hlast
    obtain rfl := Option.some.inj hlast
    obtain ⟨e, he, hcheck⟩ := List.mem_filterMap.1 (List.mem_of_getLast? hmid)
    obtain ⟨early, late, rfl⟩ := List.append_of_mem he
    have hdue := hd (before ++ early) e (late ++ .call call found result :: rest) (by simp)
    cases e with
    | stopCheck requested =>
      obtain rfl : requested = false := Option.some.inj hcheck
      have hunset : false = env.stop (before ++ early) := hdue
      rw [hlatched before early hs] at hunset
      cases hunset
    | call call files result => cases hcheck
    | reading elapsed => cases hcheck
    | update elapsed executed => cases hcheck
    | finish elapsed executed => cases hcheck

end CompilerFuzz.Campaign
