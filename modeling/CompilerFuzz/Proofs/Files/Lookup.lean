/-
  CompilerFuzz.Proofs.Files.Lookup

  What is where after a change, and what a path then leads to.

    * `find?_set` and `find?_erase` say what a change does at every location.
    * A path is followed through directories only: what it leads to in one tree it leads to
      in every tree that has the same directories (`locate_mono`, `fileTarget_congr`).
    * `fileAt?` is the location of the regular file that a path names. It decides whether
      the path names one (`isFile_iff`) and what becomes of removing it
      (`removeFile_eq_ok_iff`).
-/
import Mathlib.Logic.Basic
import CompilerFuzz.Files.Tree
import CompilerFuzz.Proofs.Lookup

namespace CompilerFuzz.Files

namespace Tree

variable {t t' t'' : Tree} {l l' : Location} {p : Path}

/-! ## Locations -/

theorem lookup_put (l l' : Location) (n : Node) (nodes : List (Location × Node)) :
    (put l n nodes).lookup l' = if l' = l then some n else nodes.lookup l' := by
  induction nodes with
  | nil => exact lookup_cons_eq_ite l' (l, n) []
  | cons e nodes ih =>
    unfold put
    by_cases he : e.1 = l
    · rw [if_pos he, lookup_cons_eq_ite, lookup_cons_eq_ite, he]
      by_cases h : l' = l
      · rw [if_pos h, if_pos h]
      · rw [if_neg h, if_neg h, if_neg h]
    · rw [if_neg he, lookup_cons_eq_ite, lookup_cons_eq_ite, ih]
      by_cases h : l' = e.1
      · have hne : l' ≠ l := h ▸ he
        rw [if_pos h, if_neg hne, if_pos h]
      · rw [if_neg h, if_neg h]

/-- Where there is no directory, there is not always one. -/
theorem isStanding_eq_false (h : t.find? l ≠ some .directory) : l.isStanding = false := by
  unfold find? at h
  cases hs : l.isStanding with
  | false => rfl
  | true =>
    rw [if_pos hs] at h
    exact absurd rfl h

theorem find?_set (h : t.find? l ≠ some .directory) (n : Node) (l' : Location) :
    (t.set l n).find? l' = if l' = l then some n else t.find? l' := by
  have hl : l.isStanding = false := isStanding_eq_false h
  unfold find? set
  rw [lookup_put]
  by_cases he : l' = l
  · rw [if_pos he, if_pos he, he, hl]
    rfl
  · rw [if_neg he, if_neg he]

theorem find?_erase (h : t.find? l ≠ some .directory) (l' : Location) :
    (t.erase l).find? l' = if l' = l then none else t.find? l' := by
  have hl : l.isStanding = false := isStanding_eq_false h
  unfold find? erase
  rw [lookup_filter_ne]
  by_cases he : l' = l
  · rw [if_pos he, if_pos he, he, hl]
    rfl
  · rw [if_neg he, if_neg he]

/-! ## Paths -/

/-- Every directory of one tree is one of the other. -/
def DirectoriesIn (t t' : Tree) : Prop :=
  ∀ l, t.find? l = some .directory → t'.find? l = some .directory

theorem enter_mono (h : t.DirectoriesIn t') {name : String} (he : t.enter l name = .ok l') :
    t'.enter l name = .ok l' := by
  unfold enter at he ⊢
  by_cases h₁ : name = "" ∨ name = "."
  · rwa [if_pos h₁] at he ⊢
  rw [if_neg h₁] at he ⊢
  by_cases h₂ : name = ".."
  · rwa [if_pos h₂] at he ⊢
  rw [if_neg h₂] at he ⊢
  by_cases h₃ : maxName < (Text.bytesOf name).length
  · rw [if_pos h₃] at he
    cases he
  rw [if_neg h₃] at he ⊢
  -- only a directory lets a path through
  cases hf : t.find? (l ++ [name]) with
  | none =>
    rw [hf] at he
    cases he
  | some node =>
    rw [hf] at he
    cases node with
    | file c => cases he
    | directory => rwa [h _ hf]

theorem follow_mono (h : t.DirectoriesIn t') {slash : Bool} {names : List String} {target : Target}
    (hf : t.follow slash l names = .ok target) : t'.follow slash l names = .ok target := by
  fun_induction follow t slash l names with
  | case1 l => exact hf
  | case2 l name => exact hf
  | case3 l name rest hrest e henter => cases hf
  | case4 l name rest hrest l₁ henter ih =>
    rw [follow, enter_mono h henter]
    · exact ih hf
    · exact hrest

/-- A path that leads somewhere is one that can be asked for, and its names are followed. -/
theorem aim_eq_ok_iff {target : Target} :
    t.aim p = .ok target ↔
      ('\x00' ∉ p.toList ∧ p ≠ "" ∧ ¬ maxPath < (Text.bytesOf p).length) ∧
        t.follow (p.toList.getLast? == some '/')
          (if Path.isAbsolute p then Location.root else Location.home) (names p) = .ok target := by
  unfold aim aimFrom
  constructor
  · intro ha
    split at ha
    · cases ha
    · next hnul =>
      split at ha
      · cases ha
      · next hempty =>
        split at ha
        · cases ha
        · next hlong => exact ⟨⟨hnul, hempty, hlong⟩, ha⟩
  · rintro ⟨⟨hnul, hempty, hlong⟩, hf⟩
    rw [if_neg hnul, if_neg hempty, if_neg hlong]
    exact hf

theorem aim_mono (h : t.DirectoriesIn t') {target : Target} (ha : t.aim p = .ok target) :
    t'.aim p = .ok target := by
  obtain ⟨hasked, hf⟩ := aim_eq_ok_iff.1 ha
  exact aim_eq_ok_iff.2 ⟨hasked, follow_mono h hf⟩

theorem locate_eq_ok_iff {target : Target} :
    t.locate p = .ok target ↔ t.aim p = .ok target ∧ target.fits = true := by
  unfold locate
  cases t.aim p with
  | error e => simp
  | ok target' =>
    by_cases hfits : target'.fits = true
    · simp only [hfits, if_true, Except.ok.injEq]
      exact ⟨fun h => ⟨h, h ▸ hfits⟩, And.left⟩
    · simp only [hfits, Except.ok.injEq]
      exact ⟨nofun, fun h => absurd (h.1 ▸ h.2) hfits⟩

theorem locate_mono (h : t.DirectoriesIn t') {target : Target} (ht : t.locate p = .ok target) :
    t'.locate p = .ok target := by
  rw [locate_eq_ok_iff] at ht ⊢
  exact ⟨aim_mono h ht.1, ht.2⟩

theorem plain_lastName {slash : Bool} {name : String} (h : (lastName l slash name).slash = false) :
    (lastName l slash name).plain = true := by
  unfold lastName at h ⊢
  by_cases h₁ : name = "" ∨ name = "."
  · rw [if_pos h₁] at h
    cases h
  rw [if_neg h₁] at h ⊢
  by_cases h₂ : name = ".."
  · rw [if_pos h₂] at h
    cases h
  rw [if_neg h₂]

theorem plain_of_follow {slash : Bool} {names : List String} {target : Target}
    (hf : t.follow slash l names = .ok target) (hs : target.slash = false) :
    target.plain = true := by
  fun_induction follow t slash l names with
  | case1 l =>
    cases hf
    cases hs
  | case2 l name =>
    cases hf
    exact plain_lastName hs
  | case3 l name rest hrest e henter => cases hf
  | case4 l name rest hrest l₁ henter ih => exact ih hf

/-- A path that can mean more than a directory ends in a name of its own. -/
theorem plain_of_locate {target : Target} (h : t.locate p = .ok target)
    (hs : target.slash = false) : target.plain = true :=
  plain_of_follow (aim_eq_ok_iff.1 (locate_eq_ok_iff.1 h).1).2 hs

/-! ## Files -/

theorem fileTarget_eq_ok_iff :
    t.fileTarget p = .ok l ↔
      ∃ target, t.locate p = .ok target ∧ target.slash = false ∧ target.location = l ∧
        t.find? l ≠ some .directory := by
  unfold fileTarget
  -- `locate` and `fileTarget` both begin with `aim`, so they can differ in the later tests only
  cases ha : t.aim p with
  | error e =>
    refine ⟨nofun, fun ⟨target, ht, _⟩ => ?_⟩
    rw [locate_eq_ok_iff, ha] at ht
    cases ht.1
  | ok target =>
    have hlocate : t.locate p = .ok target ↔ target.fits = true :=
      locate_eq_ok_iff.trans (and_iff_right ha)
    have hunique : ∀ target', t.locate p = .ok target' → target' = target := fun target' ht =>
      (Except.ok.inj (ha.symm.trans (locate_eq_ok_iff.1 ht).1)).symm
    constructor
    · intro h
      dsimp only at h
      split at h
      · cases h
      · next hslash =>
        split at h
        · cases h
        · next hfits =>
          split at h
          · cases h
          · next hdirectory =>
            cases h
            refine ⟨target, hlocate.2 (not_not.1 hfits), Bool.eq_false_iff.2 hslash, rfl, ?_⟩
            exact fun hd => hdirectory (beq_iff_eq.2 hd)
    · rintro ⟨target', ht, hslash, hlocation, hne⟩
      obtain rfl := hunique target' ht
      subst hlocation
      dsimp only
      rw [if_neg (Bool.eq_false_iff.1 hslash), if_neg (not_not_intro (hlocate.1 ht)),
        if_neg fun hd => hne (beq_iff_eq.1 hd)]

/-- In trees with the same directories a file of a given path has the same place. -/
theorem fileTarget_congr (h : t.DirectoriesIn t') (h' : t'.DirectoriesIn t)
    (ht : t.fileTarget p = .ok l) : t'.fileTarget p = .ok l := by
  obtain ⟨target, hlocate, hslash, hlocation, hne⟩ := fileTarget_eq_ok_iff.1 ht
  exact fileTarget_eq_ok_iff.2
    ⟨target, locate_mono h hlocate, hslash, hlocation, fun hd => hne (h' _ hd)⟩

/-- The location of the regular file that a path names. -/
def fileAt? (t : Tree) (p : Path) : Option Location :=
  match t.fileTarget p with
  | .error _ => none
  | .ok l => if (t.find? l).isSome then some l else none

/-- The locations of the regular files that some paths name. -/
def filesAt (t : Tree) (ps : List Path) : List Location := ps.filterMap t.fileAt?

/-- What is no directory is a file, if it is there at all. -/
theorem isSome_find?_iff (h : t.find? l ≠ some .directory) :
    (t.find? l).isSome = true ↔ ∃ c, t.find? l = some (.file c) := by
  cases hf : t.find? l with
  | none => exact ⟨nofun, nofun⟩
  | some node =>
    cases node with
    | file c => exact ⟨fun _ => ⟨c, rfl⟩, fun _ => rfl⟩
    | directory => exact absurd hf h

theorem fileAt?_eq_some_iff :
    t.fileAt? p = some l ↔ t.fileTarget p = .ok l ∧ ∃ c, t.find? l = some (.file c) := by
  unfold fileAt?
  cases ht : t.fileTarget p with
  | error e => exact ⟨nofun, nofun⟩
  | ok l' =>
    obtain ⟨_, _, _, _, hne⟩ := fileTarget_eq_ok_iff.1 ht
    dsimp only
    split
    · next hsome =>
      constructor
      · intro h
        cases h
        exact ⟨rfl, (isSome_find?_iff hne).1 hsome⟩
      · intro h
        rw [Except.ok.inj h.1]
    · next hnone =>
      refine ⟨nofun, fun ⟨h, hfile⟩ => absurd ?_ hnone⟩
      rw [Except.ok.inj h]
      obtain ⟨c, hc⟩ := hfile
      rw [hc]
      rfl

theorem mem_filesAt_iff {ps : List Path} :
    l ∈ t.filesAt ps ↔ ∃ p ∈ ps, t.fileAt? p = some l :=
  List.mem_filterMap

/-- What a path leads to if it leads to a regular file. -/
theorem fileAt?_eq_some_iff_locate :
    t.fileAt? p = some l ↔
      ∃ target c, t.locate p = .ok target ∧ target.slash = false ∧ target.location = l ∧
        t.find? l = some (.file c) := by
  rw [fileAt?_eq_some_iff, fileTarget_eq_ok_iff]
  constructor
  · rintro ⟨⟨target, hlocate, hslash, hlocation, -⟩, c, hc⟩
    exact ⟨target, c, hlocate, hslash, hlocation, hc⟩
  · rintro ⟨target, c, hlocate, hslash, hlocation, hc⟩
    exact ⟨⟨target, hlocate, hslash, hlocation, by rw [hc]; nofun⟩, c, hc⟩

theorem isFile_iff : t.isFile p = true ↔ ∃ l, t.fileAt? p = some l := by
  simp only [fileAt?_eq_some_iff_locate]
  unfold isFile status
  cases ht : t.locate p with
  | error e => exact ⟨nofun, nofun⟩
  | ok target =>
    dsimp only
    constructor
    · intro h
      -- of all nodes only a file counts, and that without a slash behind its name
      cases hf : t.find? target.location with
      | none =>
        rw [hf] at h
        cases h
      | some node =>
        rw [hf] at h
        cases node with
        | directory => cases h
        | file c =>
          cases hs : target.slash with
          | true =>
            rw [hs] at h
            cases h
          | false => exact ⟨target.location, target, c, rfl, hs, rfl, hf⟩
    · rintro ⟨l, target', c, h, hs, rfl, hf⟩
      cases h
      rw [hf, hs]
      rfl

/-- A file is removed if the path names one. -/
theorem removeFile_eq_ok_iff :
    t.removeFile p = .ok t' ↔ ∃ l, t.fileAt? p = some l ∧ t' = t.erase l := by
  simp only [fileAt?_eq_some_iff_locate]
  unfold removeFile
  cases ht : t.locate p with
  | error e => exact ⟨nofun, nofun⟩
  | ok target =>
    dsimp only
    -- a path to a file ends in a plain name, so the first test does not refuse it
    constructor
    · intro h
      split at h
      · cases h
      · split at h
        · cases h
        · cases h
        · next c hf =>
          split at h
          · cases h
          · next hs =>
            cases h
            exact ⟨_, ⟨target, c, rfl, Bool.eq_false_iff.2 hs, rfl, hf⟩, rfl⟩
    · rintro ⟨l, ⟨target', c, h, hs, rfl, hf⟩, rfl⟩
      cases h
      rw [if_neg (not_not_intro (plain_of_locate ht hs)), hf, hs]
      rfl

end Tree

end CompilerFuzz.Files
