/-
  CompilerFuzz.Proofs.Campaign.Guards

  Removing the artifacts, and guards that do so. The three paths may name one file, or one may
  lead through another, or some may name nothing that can be removed; still the removal takes
  away the files that they name at the start, each of them once (`foldl_removeOne_eq`). So the
  order of the paths makes no difference, and a second removal finds nothing. A guard is held
  from the last time one was made until it is released or its holder fails
  (`held_after_iff`); each end of a guard, the replacement by a new one among them, is such a
  removal, whatever has happened before.
-/
import Mathlib.Data.Finset.Card
import CompilerFuzz.Proofs.Campaign.Attempts
import CompilerFuzz.Proofs.Campaign.Cleanup

namespace CompilerFuzz.Campaign

open CompilerFuzz.Files

/-! ## Removals in a row -/

/-- A file that is gone is one of the others no more. -/
theorem card_filter_ne (l : Location) (ls : List Location) :
    (ls.filter fun l' => l' ∉ [l]).toFinset.card + 1 = (l :: ls).toFinset.card := by
  have herase : (ls.filter fun l' => l' ∉ [l]).toFinset = (l :: ls).toFinset.erase l := by
    ext l'
    simp only [List.mem_toFinset, List.mem_filter, Finset.mem_erase, List.mem_cons,
      decide_eq_true_iff]
    tauto
  rw [herase]
  exact Finset.card_erase_add_one (List.mem_toFinset.2 List.mem_cons_self)

/-- The files that the paths name at the start are removed, each once, by induction on the
    paths. -/
theorem foldl_removeOne_eq (ps : List Path) (t : Tree) (n : Nat) :
    ps.foldl removeOne (t, n) = (t.clear ps, n + (t.filesAt ps).toFinset.card) := by
  induction ps generalizing t n with
  | nil =>
    rw [Tree.clear_of_filesAt_eq_nil rfl]
    rfl
  | cons p ps ih =>
    rw [List.foldl_cons]
    cases h : t.fileAt? p with
    | none =>
      -- the path names nothing, now or at the start
      have hfiles : t.filesAt (p :: ps) = t.filesAt ps := List.filterMap_cons_none h
      rw [removeOne_of_eq_none h, ih, hfiles, Tree.clear_congr fun l => by rw [hfiles]]
    | some l =>
      have hfiles : t.filesAt (p :: ps) = l :: t.filesAt ps := List.filterMap_cons_some h
      have hgone : t.filesAt [p] = [l] := by
        unfold Tree.filesAt
        rw [List.filterMap_cons_some h, List.filterMap_nil]
      have hwithout : Tree.Without [p] t (t.erase l) :=
        .of_removeFile (Tree.removeFile_eq_ok_iff.2 ⟨l, h, rfl⟩)
      rw [removeOne_of_eq_some h, ih, Tree.clear_cons h, hwithout.filesAt_eq, hgone, hfiles,
        ← card_filter_ne l]
      congr 1
      omega

section Removal

variable (a b : Artifacts) (t : Tree)

theorem removeArtifacts_eq :
    removeArtifacts a t = (t.clear a.all, (t.filesAt a.all).toFinset.card) := by
  unfold removeArtifacts
  rw [foldl_removeOne_eq, Nat.zero_add]

theorem clear_without : Tree.Without a.all t (t.clear a.all) := by
  have h := removeArtifacts_without a t
  rwa [removeArtifacts_eq] at h

theorem removeArtifacts_perm {a b : Artifacts} (h : b.all.Perm a.all) :
    removeArtifacts b t = removeArtifacts a t := by
  have hfiles : (t.filesAt b.all).Perm (t.filesAt a.all) := h.filterMap _
  rw [removeArtifacts_eq, removeArtifacts_eq, Tree.clear_congr fun l => hfiles.mem_iff,
    List.toFinset_eq_of_perm _ _ hfiles]

/-- A second removal finds no file. -/
theorem removeArtifacts_again :
    removeArtifacts a (removeArtifacts a t).1 = ((removeArtifacts a t).1, 0) := by
  have hnone : (t.clear a.all).filesAt a.all = [] :=
    List.filterMap_eq_nil_iff.2 fun p hp => (clear_without a t).fileAt?_eq_none hp
  rw [removeArtifacts_eq, removeArtifacts_eq, Tree.clear_of_filesAt_eq_nil hnone, hnone]
  rfl

end Removal

/-! ## Guards -/

/-- A workspace after some actions. -/
def Guarded.after (a : Artifacts) (g : Guarded) (actions : List GuardAction) : Guarded :=
  actions.foldl (fun g action => (g.act a action).1) g

/-- The actions leave a guard: one was made, and after that none was released and no holder
    failed. -/
def LeavesGuard (actions : List GuardAction) : Prop :=
  ∃ earlier later, actions = earlier ++ .hold :: later ∧ .release ∉ later ∧ .fail ∉ later

/-- The actions that end a guard if there is one. -/
def GuardAction.Ends (action : GuardAction) : Prop :=
  action = .hold ∨ action = .release ∨ action = .fail

theorem Guarded.after_concat (a : Artifacts) (g : Guarded) (actions : List GuardAction)
    (action : GuardAction) :
    g.after a (actions ++ [action]) = ((g.after a actions).act a action).1 :=
  List.foldl_concat ..

theorem leavesGuard_concat_hold (actions : List GuardAction) : LeavesGuard (actions ++ [.hold]) :=
  ⟨actions, [], rfl, List.not_mem_nil, List.not_mem_nil⟩

/-- Other actions neither make a guard nor end one. -/
theorem leavesGuard_concat_iff {action : GuardAction} (h : action ≠ .hold)
    (actions : List GuardAction) :
    LeavesGuard (actions ++ [action]) ↔
      LeavesGuard actions ∧ action ≠ .release ∧ action ≠ .fail := by
  constructor
  · rintro ⟨earlier, later, heq, hrelease, hfail⟩
    obtain rfl | ⟨later, last, rfl⟩ := List.eq_nil_or_concat later
    · exact absurd (List.append_inj' heq rfl).2 (by simpa using h)
    · rw [List.concat_eq_append, ← List.cons_append, ← List.append_assoc] at heq
      obtain ⟨hactions, hlast⟩ := List.append_inj' heq rfl
      obtain rfl := List.singleton_inj.1 hlast
      simp only [List.concat_eq_append, List.mem_append, List.mem_singleton, not_or] at hrelease hfail
      exact ⟨⟨earlier, later, hactions, hrelease.1, hfail.1⟩, Ne.symm hrelease.2, Ne.symm hfail.2⟩
  · rintro ⟨⟨earlier, later, rfl, hrelease, hfail⟩, hne, hne'⟩
    refine ⟨earlier, later ++ [action], by simp, ?_, ?_⟩
    · simpa [hrelease] using Ne.symm hne
    · simpa [hfail] using Ne.symm hne'

/-- Actions that end no guard and make none leave it alone. -/
theorem Guarded.held_act (a : Artifacts) (g : Guarded) {action : GuardAction}
    (h : ¬ action.Ends) : (g.act a action).1.held = g.held := by
  cases action with
  | place path node => rfl
  | hold => exact absurd (.inl rfl) h
  | cleanup =>
    show (if g.held then (⟨_, true⟩, _) else (g, _) : Guarded × GuardAnswer).1.held = g.held
    split
    · next hheld => exact hheld.symm
    · rfl
  | release => exact absurd (.inr (.inl rfl)) h
  | fail => exact absurd (.inr (.inr rfl)) h
  | remove => rfl

/-- A guard is held if the actions leave one, by induction on the actions. -/
theorem held_after_iff (a : Artifacts) (t : Tree) (actions : List GuardAction) :
    (Guarded.after a ⟨t, false⟩ actions).held = true ↔ LeavesGuard actions := by
  induction actions using List.reverseRecOn with
  | nil =>
    refine ⟨nofun, fun ⟨earlier, later, heq, _⟩ => ?_⟩
    exact absurd heq.symm (List.append_ne_nil_of_right_ne_nil _ (List.cons_ne_nil _ _))
  | append_singleton actions action ih =>
    rw [Guarded.after_concat]
    -- an action either settles whether a guard is left, or leaves that to the earlier ones
    by_cases hends : action.Ends
    · obtain rfl | rfl | rfl := hends
      · exact iff_of_true rfl (leavesGuard_concat_hold actions)
      · rw [leavesGuard_concat_iff (by nofun)]
        exact iff_of_false nofun fun h => h.2.1 rfl
      · rw [leavesGuard_concat_iff (by nofun)]
        exact iff_of_false nofun fun h => h.2.2 rfl
    · obtain ⟨hhold, hrelease, hfail⟩ := not_or.1 hends |>.imp_right not_or.1
      rw [Guarded.held_act a _ hends, leavesGuard_concat_iff hhold, ih]
      exact (and_iff_left ⟨hrelease, hfail⟩).symm

/-- An action that ends a guard removes the artifacts if one is held, and does nothing to the
    files otherwise. -/
theorem files_act_of_ends (a : Artifacts) (g : Guarded) {action : GuardAction} (h : action.Ends) :
    (g.act a action).1.files = if g.held then g.files.clear a.all else g.files := by
  have hended : (g.act a action).1.files = g.ended a := by
    obtain rfl | rfl | rfl := h <;> rfl
  rw [hended]
  unfold Guarded.ended
  rw [removeArtifacts_eq]

/-- Whatever is where, and whatever the three paths name: the removal takes away the regular
    files that they name and nothing else, and counts each file once; the order of the paths
    does not matter; a second removal counts nothing and changes nothing. In any sequence of
    actions over the same paths the files after the end of a guard are those before it, without
    the regular files that the paths then name; where no guard is held, its end changes
    nothing. -/
theorem removal_confined (a : Artifacts) (t : Tree) :
    (Tree.Without a.all t (removeArtifacts a t).1 ∧
      (removeArtifacts a t).2 = (t.filesAt a.all).toFinset.card) ∧
    (∀ b : Artifacts, b.all.Perm a.all → removeArtifacts b t = removeArtifacts a t) ∧
    removeArtifacts a (removeArtifacts a t).1 = ((removeArtifacts a t).1, 0) ∧
    ∀ actions, Throughout (fun before (action : GuardAction) => action.Ends →
      let found := (Guarded.after a ⟨t, false⟩ before).files
      let left := (Guarded.after a ⟨t, false⟩ (before ++ [action])).files
      (LeavesGuard before → Tree.Without a.all found left ∧ left = found.clear a.all) ∧
        (¬ LeavesGuard before → left = found)) actions := by
  refine ⟨⟨removeArtifacts_without a t, congrArg Prod.snd (removeArtifacts_eq a t)⟩,
    fun b hb => removeArtifacts_perm t hb, removeArtifacts_again a t,
    fun actions before action rest _ hends => ?_⟩
  have hfiles := files_act_of_ends a (Guarded.after a ⟨t, false⟩ before) hends
  rw [← Guarded.after_concat] at hfiles
  refine ⟨fun hheld => ?_, fun hnone => ?_⟩
  · rw [if_pos ((held_after_iff a t before).2 hheld)] at hfiles
    rw [hfiles]
    exact ⟨clear_without a _, rfl⟩
  · rw [if_neg fun hheld => hnone ((held_after_iff a t before).1 hheld)] at hfiles
    exact hfiles

/-- One file that two of the paths name and the third leads through. A holder that fails after
    the file was written again takes it away once more. -/
theorem removal_of_nested_paths :
    let a : Artifacts := ⟨"x", "x", "x/y"⟩
    let t : Tree := ⟨[(Location.home ++ ["x"], .file [])]⟩
    let before := [.hold, .place "x" (.file [1])]
    (removeArtifacts a t).2 = 1 ∧ [a.binary, a.source, a.ir].Perm a.all ∧
      removeArtifacts ⟨a.binary, a.source, a.ir⟩ t = removeArtifacts a t ∧
      LeavesGuard before ∧ GuardAction.fail.Ends ∧
      (Guarded.after a ⟨t, false⟩ before).files.isFile "x" = true ∧
      (Guarded.after a ⟨t, false⟩ (before ++ [.fail])).files =
        (Guarded.after a ⟨t, false⟩ before).files.clear a.all := by
  intro a t before
  have hguard : LeavesGuard before := ⟨[], [.place "x" (.file [1])], rfl, by simp, by simp⟩
  have hends : GuardAction.fail.Ends := .inr (.inr rfl)
  have hperm : [a.binary, a.source, a.ir].Perm a.all := by decide
  obtain ⟨⟨-, hcount⟩, horder, -, hguards⟩ := removal_confined a t
  refine ⟨hcount.trans (by decide +kernel), hperm, horder ⟨a.binary, a.source, a.ir⟩ hperm, hguard,
    hends, by decide +kernel, ?_⟩
  exact ((hguards (before ++ [.fail]) before .fail [] rfl hends).1 hguard).2

end CompilerFuzz.Campaign
