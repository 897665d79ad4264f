/-
  CompilerFuzz.Proofs.Files.Changes

  What a number of changes does to a tree.

    * `Without`: the regular files that some paths name are gone, and nothing else is. `clear`
      is the tree in which this is so, its list of nodes otherwise unchanged.
    * `Rewritten`: regular files at some paths have been written or removed, and nothing
      else has happened. Once they are gone nothing is left of that (`Rewritten.without`), and
      until then a file holds what was written last (`read_of_write`).
    * `Grown`: directories have been made, each at a place that one of some paths leads to.
      Making a directory and the missing ones above it does no more than that
      (`makeDirectories_grown`).

  The first two change places of files only (`AgreesBut`), so they keep the directories, and
  with them what every path leads to.
-/
import Mathlib.Logic.Relation
import CompilerFuzz.Proofs.Files.Lookup

namespace CompilerFuzz.Files

open CompilerFuzz.Text

/-- `q` is the directory in which the last name of `p` is, as far as the texts tell. -/
def Path.Up (p q : Path) : Prop := Path.parent? p = some q

namespace Tree

variable {t t' t'' : Tree} {l : Location} {p : Path} {ps qs : List Path}

/-! ## Places of files -/

theorem find?_of_fileTarget (h : t.fileTarget p = .ok l) : t.find? l ≠ some .directory := by
  obtain ⟨_, _, _, _, hne⟩ := fileTarget_eq_ok_iff.1 h
  exact hne

theorem fileTarget_of_mem_filesAt (h : l ∈ t.filesAt ps) : ∃ p ∈ ps, t.fileTarget p = .ok l := by
  obtain ⟨p, hp, hfile⟩ := mem_filesAt_iff.1 h
  exact ⟨p, hp, (fileAt?_eq_some_iff.1 hfile).1⟩

/-- Two trees differ at places of files only, where the second has no directory. -/
def AgreesBut (ps : List Path) (t t' : Tree) : Prop :=
  ∀ l, t'.find? l = t.find? l ∨
    (∃ p ∈ ps, t.fileTarget p = .ok l) ∧ t'.find? l ≠ some .directory

namespace AgreesBut

theorem mono (hsub : ps ⊆ qs) (h : AgreesBut ps t t') : AgreesBut qs t t' := by
  intro l
  rcases h l with heq | ⟨⟨p, hp, ht⟩, hne⟩
  · exact .inl heq
  · exact .inr ⟨⟨p, hsub hp, ht⟩, hne⟩

theorem directoriesIn (h : AgreesBut ps t t') : t.DirectoriesIn t' := by
  intro l hl
  rcases h l with heq | ⟨⟨p, _, hp⟩, -⟩
  · rw [heq, hl]
  · exact absurd hl (find?_of_fileTarget hp)

theorem directoriesIn_symm (h : AgreesBut ps t t') : t'.DirectoriesIn t := by
  intro l hl
  rcases h l with heq | ⟨-, hne⟩
  · rw [← heq, hl]
  · exact absurd hl hne

/-- The place of a file is the same in both trees. -/
theorem fileTarget_iff (h : AgreesBut ps t t') :
    t'.fileTarget p = .ok l ↔ t.fileTarget p = .ok l :=
  ⟨fileTarget_congr h.directoriesIn_symm h.directoriesIn,
    fileTarget_congr h.directoriesIn h.directoriesIn_symm⟩

/-- One more change at the place of a file. -/
theorem change (h : AgreesBut ps t t') (hp : p ∈ ps) (ht : t'.fileTarget p = .ok l)
    {n : Option Node} (hn : n ≠ some .directory)
    (hfind : ∀ l', t''.find? l' = if l' = l then n else t'.find? l') : AgreesBut ps t t'' := by
  intro l'
  rw [hfind]
  by_cases hl : l' = l
  · rw [if_pos hl, hl]
    exact .inr ⟨⟨p, hp, h.fileTarget_iff.1 ht⟩, hn⟩
  · rw [if_neg hl]
    exact h l'

end AgreesBut

/-! ## Files gone -/

/-- What is left at a location without the regular files that some paths name. -/
def remaining? (t : Tree) (ps : List Path) (l : Location) : Option Node :=
  if l ∈ t.filesAt ps then none else t.find? l

/-- The regular files that the paths name in the first tree are not in the second, and
    there is no other difference. -/
def Without (ps : List Path) (t t' : Tree) : Prop := ∀ l, t'.find? l = t.remaining? ps l

/-- At the place of a file nothing is left without it. -/
theorem remaining?_of_fileTarget (hp : p ∈ ps) (ht : t.fileTarget p = .ok l) :
    t.remaining? ps l = none := by
  unfold remaining?
  split
  · rfl
  · next hnot =>
    have hfile : ¬ ∃ c, t.find? l = some (.file c) := fun hc =>
      hnot (mem_filesAt_iff.2 ⟨p, hp, fileAt?_eq_some_iff.2 ⟨ht, hc⟩⟩)
    rwa [← isSome_find?_iff (find?_of_fileTarget ht), Option.not_isSome_iff_eq_none] at hfile

theorem remaining?_of_not_fileTarget (h : ∀ p ∈ ps, t.fileTarget p ≠ .ok l) :
    t.remaining? ps l = t.find? l := by
  refine if_neg fun hmem => ?_
  obtain ⟨p, hp, ht⟩ := fileTarget_of_mem_filesAt hmem
  exact h p hp ht

/-- Trees that differ at places of files only are the same without these files. -/
theorem AgreesBut.remaining?_eq (h : AgreesBut ps t t') (l : Location) :
    t'.remaining? ps l = t.remaining? ps l := by
  by_cases hl : ∃ p ∈ ps, t.fileTarget p = .ok l
  · obtain ⟨p, hp, ht⟩ := hl
    rw [remaining?_of_fileTarget hp ht, remaining?_of_fileTarget hp (h.fileTarget_iff.2 ht)]
  · have hnot : ∀ p ∈ ps, t.fileTarget p ≠ .ok l := fun p hp ht => hl ⟨p, hp, ht⟩
    have hnot' : ∀ p ∈ ps, t'.fileTarget p ≠ .ok l := fun p hp ht =>
      hnot p hp (h.fileTarget_iff.1 ht)
    rw [remaining?_of_not_fileTarget hnot, remaining?_of_not_fileTarget hnot']
    exact (h l).resolve_right fun hr => hl hr.1

namespace Without

/-- Without the files of no path a tree is what it is. -/
theorem nil (t : Tree) : Without [] t t := fun _ => (if_neg List.not_mem_nil).symm

/-- A path that names no file makes no difference. -/
theorem of_fileAt?_eq_none (h : t.fileAt? p = none) : Without [p] t t := by
  intro l
  unfold remaining? filesAt
  rw [List.filterMap_cons_none h, List.filterMap_nil, if_neg List.not_mem_nil]

theorem of_removeFile (h : t.removeFile p = .ok t') : Without [p] t t' := by
  obtain ⟨l, hfile, rfl⟩ := removeFile_eq_ok_iff.1 h
  intro l'
  unfold remaining? filesAt
  rw [List.filterMap_cons_some hfile, List.filterMap_nil]
  simp only [List.mem_singleton]
  exact find?_erase (find?_of_fileTarget (fileAt?_eq_some_iff.1 hfile).1) l'

theorem agreesBut (h : Without ps t t') : AgreesBut ps t t' := by
  intro l
  rw [h l]
  unfold remaining?
  split
  · next hmem => exact .inr ⟨fileTarget_of_mem_filesAt hmem, nofun⟩
  · exact .inl rfl

theorem fileAt?_eq_none (h : Without ps t t') (hp : p ∈ ps) : t'.fileAt? p = none := by
  cases hfile : t'.fileAt? p with
  | none => rfl
  | some l =>
    obtain ⟨ht, c, hc⟩ := fileAt?_eq_some_iff.1 hfile
    rw [h l, remaining?_of_fileTarget hp (h.agreesBut.fileTarget_iff.1 ht)] at hc
    cases hc

theorem isFile_eq_false (h : Without ps t t') (hp : p ∈ ps) : t'.isFile p = false := by
  rw [Bool.eq_false_iff, ne_eq, isFile_iff, h.fileAt?_eq_none hp]
  exact nofun

/-- Files gone in two steps are gone together. -/
theorem append (h : Without ps t t') (h' : Without qs t' t'') : Without (ps ++ qs) t t'' := by
  have hgone : t'.filesAt ps = [] := List.filterMap_eq_nil_iff.2 fun p hp => h.fileAt?_eq_none hp
  have hfiles : t'.filesAt (ps ++ qs) = t'.filesAt qs := by
    unfold filesAt at hgone ⊢
    rw [List.filterMap_append, hgone, List.nil_append]
  intro l
  rw [h' l, ← (h.agreesBut.mono (List.subset_append_left ps qs)).remaining?_eq l]
  unfold remaining?
  rw [hfiles]

/-- A directory stays. -/
theorem directoriesIn (h : Without ps t t') : t.DirectoriesIn t' := h.agreesBut.directoriesIn

/-- A path names the file that it named before, unless that one is gone. -/
theorem fileAt?_eq (h : Without ps t t') (q : Path) :
    t'.fileAt? q = (t.fileAt? q).filter fun l => l ∉ t.filesAt ps := by
  ext l
  rw [Option.filter_eq_some_iff, fileAt?_eq_some_iff, fileAt?_eq_some_iff,
    h.agreesBut.fileTarget_iff, h l, decide_eq_true_iff]
  unfold remaining?
  by_cases hl : l ∈ t.filesAt ps
  · simp [hl]
  · simp [hl]

theorem filesAt_eq (h : Without ps t t') (qs : List Path) :
    t'.filesAt qs = (t.filesAt qs).filter fun l => l ∉ t.filesAt ps := by
  unfold filesAt
  rw [List.filter_filterMap]
  exact congrArg (List.filterMap · qs) (funext h.fileAt?_eq)

end Without

/-- The tree without the regular files that some paths name. -/
def clear (t : Tree) (ps : List Path) : Tree := ⟨t.nodes.filter fun e => e.1 ∉ t.filesAt ps⟩

/-- Without any such file there is nothing to clear. -/
theorem clear_of_filesAt_eq_nil (h : t.filesAt ps = []) : t.clear ps = t := by
  unfold clear
  rw [h]
  exact congrArg Tree.mk (List.filter_eq_self.2 fun _ _ => decide_eq_true List.not_mem_nil)

/-- It does not matter in which order, or how often, the files are named. -/
theorem clear_congr (h : ∀ l, l ∈ t.filesAt ps ↔ l ∈ t.filesAt qs) : t.clear ps = t.clear qs := by
  unfold clear
  simp only [h]

/-- The file of the first path goes first. -/
theorem clear_cons (h : t.fileAt? p = some l) : t.clear (p :: ps) = (t.erase l).clear ps := by
  have hwithout : Without [p] t (t.erase l) := .of_removeFile (removeFile_eq_ok_iff.2 ⟨l, h, rfl⟩)
  have hgone : t.filesAt [p] = [l] := by
    unfold filesAt
    rw [List.filterMap_cons_some h, List.filterMap_nil]
  have hfiles : t.filesAt (p :: ps) = l :: t.filesAt ps := List.filterMap_cons_some h
  unfold clear
  rw [hwithout.filesAt_eq, hgone, hfiles]
  show Tree.mk _ = Tree.mk (List.filter _ (List.filter _ t.nodes))
  rw [List.filter_filter]
  congr 2
  ext e
  by_cases he : e.1 = l
  · simp [he]
  · simp [he]

/-! ## Files written and removed -/

/-- Regular files at the given paths have been written or removed, and nothing else. -/
inductive Rewritten (ps : List Path) (t : Tree) : Tree → Prop
  | refl : Rewritten ps t t
  | write {t' t'' : Tree} {p : Path} {content : Bytes} (h : Rewritten ps t t') (hp : p ∈ ps)
      (hw : t'.write p content = .ok t'') : Rewritten ps t t''
  | remove {t' t'' : Tree} {p : Path} (h : Rewritten ps t t') (hp : p ∈ ps)
      (hr : t'.removeFile p = .ok t'') : Rewritten ps t t''

namespace Rewritten

theorem trans (h : Rewritten ps t t') (h' : Rewritten ps t' t'') : Rewritten ps t t'' := by
  induction h' with
  | refl => exact h
  | write _ hp hw ih => exact .write ih hp hw
  | remove _ hp hr ih => exact .remove ih hp hr

theorem mono (hsub : ps ⊆ qs) (h : Rewritten ps t t') : Rewritten qs t t' := by
  induction h with
  | refl => exact .refl
  | write _ hp hw ih => exact .write ih (hsub hp) hw
  | remove _ hp hr ih => exact .remove ih (hsub hp) hr

theorem agreesBut (h : Rewritten ps t t') : AgreesBut ps t t' := by
  induction h with
  | refl => exact fun l => .inl rfl
  | @write t₁ t₂ p content _ hp hw ih =>
    unfold Tree.write at hw
    cases ht : t₁.fileTarget p with
    | error e =>
      rw [ht] at hw
      cases hw
    | ok l =>
      rw [ht] at hw
      cases hw
      exact ih.change hp ht (by nofun) (find?_set (find?_of_fileTarget ht) _)
  | remove _ hp hr ih =>
    obtain ⟨l, hfile, rfl⟩ := removeFile_eq_ok_iff.1 hr
    have ht := (fileAt?_eq_some_iff.1 hfile).1
    exact ih.change hp ht (by nofun) (find?_erase (find?_of_fileTarget ht))

/-- Without the files it makes no difference that they have been rewritten. -/
theorem without (h : Rewritten ps t t') (h' : Without ps t' t'') : Without ps t t'' := by
  intro l
  rw [h' l, h.agreesBut.remaining?_eq]

end Rewritten

/-! ## What was written is there -/

theorem write_eq_ok_iff {content : Bytes} :
    t.write p content = .ok t' ↔ ∃ l, t.fileTarget p = .ok l ∧ t' = t.set l (.file content) := by
  unfold write
  cases t.fileTarget p with
  | error e => exact ⟨nofun, fun ⟨_, h, _⟩ => nomatch h⟩
  | ok l =>
    constructor
    · intro h
      exact ⟨l, rfl, (Except.ok.inj h).symm⟩
    · rintro ⟨l', hl, rfl⟩
      cases hl
      rfl

/-- A path still names the place that was written through it. -/
theorem fileTarget_of_write {content : Bytes} (h : t.write p content = .ok t') {l : Location}
    (ht : t.fileTarget p = .ok l) : t'.fileTarget p = .ok l :=
  have hwritten : Rewritten [p] t t' := .write .refl List.mem_cons_self h
  hwritten.agreesBut.fileTarget_iff.2 ht

/-- What can be written once can be written again. -/
theorem write_of_write {content : Bytes} (h : t.write p content = .ok t') (content' : Bytes) :
    ∃ t'', t'.write p content' = .ok t'' := by
  obtain ⟨l, ht, -⟩ := write_eq_ok_iff.1 h
  exact ⟨_, write_eq_ok_iff.2 ⟨l, fileTarget_of_write h ht, rfl⟩⟩

/-- A file holds what was written last. -/
theorem read_of_write {content : Bytes} (h : t.write p content = .ok t') :
    t'.read p = .ok content := by
  obtain ⟨l, ht, rfl⟩ := write_eq_ok_iff.1 h
  obtain ⟨target, hlocate, hslash, hlocation, -⟩ :=
    fileTarget_eq_ok_iff.1 (fileTarget_of_write h ht)
  have hfile : (t.set l (.file content)).find? target.location = some (.file content) := by
    rw [hlocation, find?_set (find?_of_fileTarget ht), if_pos rfl]
  unfold read status
  rw [hlocate]
  dsimp only
  rw [hfile, hslash]
  rfl

/-! ## Directories made -/

/-- Directories have been made where there was nothing, each at a place that a path with the
    given property leads to, and nothing else has happened. -/
def Grown (A : Path → Prop) (t t' : Tree) : Prop :=
  ∀ l, t'.find? l = t.find? l ∨
    t.find? l = none ∧ t'.find? l = some .directory ∧
      ∃ q target, A q ∧ t'.locate q = .ok target ∧ target.location = l

namespace Grown

variable {A B : Path → Prop}

theorem refl (A : Path → Prop) (t : Tree) : Grown A t t := fun _ => .inl rfl

theorem mono (hsub : ∀ q, A q → B q) (h : Grown A t t') : Grown B t t' := by
  intro l
  obtain heq | ⟨hnone, hmade, q, target, hq, hlocate, hlocation⟩ := h l
  · exact .inl heq
  · exact .inr ⟨hnone, hmade, q, target, hsub q hq, hlocate, hlocation⟩

theorem directoriesIn (h : Grown A t t') : t.DirectoriesIn t' := by
  intro l hl
  rcases h l with heq | ⟨-, hmade, -⟩
  · rw [heq, hl]
  · exact hmade

theorem trans (h : Grown A t t') (h' : Grown A t' t'') : Grown A t t'' := by
  intro l
  obtain heq' | ⟨hnone, hmade', hq⟩ := h' l
  · rw [heq']
    obtain heq | ⟨hnone, hmade, q, target, hq, hlocate, hlocation⟩ := h l
    · exact .inl heq
    · -- the path still leads to the directory made first
      exact .inr ⟨hnone, hmade, q, target, hq, locate_mono h'.directoriesIn hlocate, hlocation⟩
  · obtain heq | ⟨-, hmade, -⟩ := h l
    · exact .inr ⟨heq ▸ hnone, hmade', hq⟩
    · rw [hmade] at hnone
      cases hnone

end Grown

theorem makeDirectory_grown (h : t.makeDirectory p = .ok t') : Grown (· = p) t t' := by
  unfold makeDirectory at h
  split at h
  · cases h
  · next target hlocate =>
    split at h
    · next hnone =>
      cases h
      -- directories are only added, so a path that was located still leads to its place
      have hne : t.find? target.location ≠ some .directory := by rw [hnone]; nofun
      have hfind := find?_set hne .directory
      have hin : t.DirectoriesIn (t.set target.location .directory) := by
        intro l hl
        rw [hfind]
        split
        · rfl
        · exact hl
      intro l
      by_cases hl : l = target.location
      · subst hl
        exact .inr ⟨hnone, (hfind _).trans (if_pos rfl), p, target, rfl, locate_mono hin hlocate, rfl⟩
      · exact .inl ((hfind l).trans (if_neg hl))
    · cases h

/-- Directories are made where the path or one above it leads to. -/
theorem makeDirectories_grown (t : Tree) (p : Path) :
    Grown (Relation.ReflTransGen Path.Up p) t (t.makeDirectories p).1 := by
  have hself : ∀ {t t' : Tree} {p : Path}, t.makeDirectory p = .ok t' →
      Grown (Relation.ReflTransGen Path.Up p) t t' := by
    intro t t' p h
    refine (makeDirectory_grown h).mono ?_
    rintro q rfl
    exact .refl
  fun_induction makeDirectories t p with
  | case1 => exact .refl _ _
  | case2 p hne t₁ hmade => exact hself hmade
  | case3 p hne e hfailed he => exact .refl _ _
  | case4 p hne e hfailed he hparent => exact .refl _ _
  | case5 p hne e hfailed he parent hparent t₁ e₁ habove ih =>
    -- the directories above were made as far as that went
    rw [habove] at ih
    exact ih.mono fun q hq => .head hparent hq
  | case6 p hne e hfailed he parent hparent t₁ habove t₂ hmade ih =>
    rw [habove] at ih
    exact (ih.mono fun q hq => .head hparent hq).trans (hself hmade)
  | case7 p hne e hfailed he parent hparent t₁ habove e₁ hfailed' ih =>
    rw [habove] at ih
    exact ih.mono fun q hq => .head hparent hq

end Tree

end CompilerFuzz.Files
