/-
  CompilerFuzz.Proofs.Toml.Editing

  Changes to a document by the names of its entries, and what is found in it afterwards.

    * `without` and `edit` change the entries under one name; `withoutInner` and `replaceInner`
      change one entry of the table that stands under a name.
    * `inner?` is the value of an entry of such a table. A change is seen at its own place and
      nowhere else (`inner?_without`, `inner?_withoutInner`, `inner?_replaceInner`).
    * `Extends` is a table with more entries, under names that are not known. Under a known
      name the same value is found (`Extends.lookup_eq`).
-/
import CompilerFuzz.Proofs.Lookup
import CompilerFuzz.Toml.Value

namespace CompilerFuzz.Toml

/-- Changes a table. A value of another kind stays as it is. -/
def Value.editTable (h : Table → Table) : Value → Value
  | .table entries => .table (h entries)
  | v => v

namespace Table

/-! ## Changes -/

/-- The table without the entries under a name. -/
def without (name : String) (t : Table) : Table :=
  t.filter fun e => e.1 ≠ name

/-- The table with the value under a name changed, if there is one. -/
def edit (name : String) (g : Value → Value) (t : Table) : Table :=
  t.map fun e => if e.1 = name then (e.1, g e.2) else e

/-- The document without the entry `inner` of the table under `outer`. -/
def withoutInner (outer inner : String) (t : Table) : Table :=
  t.edit outer (Value.editTable (without inner))

/-- The document with another value for the entry `inner` of the table under `outer`, if there is
    such an entry. -/
def replaceInner (outer inner : String) (v : Value) (t : Table) : Table :=
  t.edit outer (Value.editTable (edit inner fun _ => v))

/-- The second table is the first with entries added, at any place, under names that are not
    `known`. -/
inductive Extends (known : String → Prop) : Table → Table → Prop
  | nil : Extends known [] []
  | keep (e : String × Value) {t t' : Table} (h : Extends known t t') :
      Extends known (e :: t) (e :: t')
  | add (e : String × Value) {t t' : Table} (hname : ¬ known e.1) (h : Extends known t t') :
      Extends known t (e :: t')

/-! ## What is found -/

/-- The entries of the table under a name. -/
def entriesAt (outer : String) (t : Table) : Table :=
  match t.lookup outer with
  | some (.table entries) => entries
  | _ => []

/-- The value of the entry `inner` of the table under `outer`. -/
def inner? (outer inner : String) (t : Table) : Option Value :=
  (t.entriesAt outer).lookup inner

/-- What stands under a name, if anything does, is a table. -/
def TableAt (name : String) (t : Table) : Prop :=
  ∀ v, t.lookup name = some v → ∃ entries, v = .table entries

variable {known : String → Prop} {outer inner name : String} {t t' entries : Table} {v : Value}

theorem entriesAt_of_lookup (h : t.lookup outer = some (.table entries)) :
    t.entriesAt outer = entries := by
  unfold entriesAt
  rw [h]

theorem entriesAt_of_lookup_eq_none (h : t.lookup outer = none) : t.entriesAt outer = [] := by
  unfold entriesAt
  rw [h]

theorem entriesAt_congr (h : t'.lookup outer = t.lookup outer) :
    t'.entriesAt outer = t.entriesAt outer := by
  unfold entriesAt
  rw [h]

theorem tableAt_congr (h : t'.lookup outer = t.lookup outer) (ht : t.TableAt outer) :
    t'.TableAt outer := by
  unfold TableAt
  rwa [h]

/-- A value is found in a table only. -/
theorem tableAt_of_inner? (h : t.inner? outer inner = some v) : t.TableAt outer := by
  unfold inner? entriesAt at h
  split at h
  · next entries hlookup =>
    intro w hw
    rw [hlookup] at hw
    exact ⟨entries, (Option.some.inj hw).symm⟩
  · cases h

/-! ### An entry is taken away -/

theorem lookup_without (name name' : String) (t : Table) :
    (t.without name).lookup name' = if name' = name then none else t.lookup name' :=
  lookup_filter_ne name name' t

theorem tableAt_without (name : String) (ht : t.TableAt outer) :
    (t.without name).TableAt outer := by
  have hlookup := lookup_without name outer t
  by_cases h : outer = name
  · intro v hv
    rw [hlookup, if_pos h] at hv
    cases hv
  · rw [if_neg h] at hlookup
    exact tableAt_congr hlookup ht

theorem inner?_without (name outer inner : String) (t : Table) :
    (t.without name).inner? outer inner = if outer = name then none else t.inner? outer inner := by
  have hlookup := lookup_without name outer t
  unfold inner?
  by_cases h : outer = name
  · rw [if_pos h] at hlookup ⊢
    rw [entriesAt_of_lookup_eq_none hlookup]
    rfl
  · rw [if_neg h] at hlookup ⊢
    rw [entriesAt_congr hlookup]

/-! ### A table is changed -/

theorem lookup_edit (name name' : String) (g : Value → Value) (t : Table) :
    (t.edit name g).lookup name' =
      if name' = name then (t.lookup name').map g else t.lookup name' :=
  lookup_map_at name name' g t

theorem tableAt_edit (name : String) (h : Table → Table) (ht : t.TableAt outer) :
    (t.edit name (Value.editTable h)).TableAt outer := by
  have hlookup := lookup_edit name outer (Value.editTable h) t
  by_cases hname : outer = name
  · intro v hv
    rw [hlookup, if_pos hname] at hv
    obtain ⟨w, hw, rfl⟩ := Option.map_eq_some_iff.1 hv
    obtain ⟨entries, rfl⟩ := ht w hw
    exact ⟨h entries, rfl⟩
  · rw [if_neg hname] at hlookup
    exact tableAt_congr hlookup ht

/-- What is changed in the table under a name is changed there alone. -/
theorem entriesAt_edit (name outer : String) {h : Table → Table} (hnil : h [] = []) (t : Table) :
    (t.edit name (Value.editTable h)).entriesAt outer =
      if outer = name then h (t.entriesAt outer) else t.entriesAt outer := by
  have hlookup := lookup_edit name outer (Value.editTable h) t
  by_cases hname : outer = name
  · rw [if_pos hname] at hlookup ⊢
    unfold entriesAt
    rw [hlookup]
    -- anything but a table holds no entries, before and after
    cases t.lookup outer with
    | none => exact hnil.symm
    | some v =>
      cases v with
      | table entries => rfl
      | string s => exact hnil.symm
      | integer n => exact hnil.symm
      | float text => exact hnil.symm
      | boolean b => exact hnil.symm
      | dateTime text => exact hnil.symm
      | array items => exact hnil.symm
  · rw [if_neg hname] at hlookup ⊢
    exact entriesAt_congr hlookup

theorem inner?_withoutInner (outer inner outer' inner' : String) (t : Table) :
    (t.withoutInner outer inner).inner? outer' inner' =
      if outer' = outer ∧ inner' = inner then none else t.inner? outer' inner' := by
  unfold inner? withoutInner
  rw [entriesAt_edit outer outer' (h := without inner) rfl]
  by_cases houter : outer' = outer
  · rw [if_pos houter, lookup_without]
    by_cases hinner : inner' = inner
    · rw [if_pos hinner, if_pos ⟨houter, hinner⟩]
    · rw [if_neg hinner, if_neg fun h => hinner h.2]
  · rw [if_neg houter, if_neg fun h => houter h.1]

theorem inner?_replaceInner (outer inner outer' inner' : String) (v : Value) (t : Table) :
    (t.replaceInner outer inner v).inner? outer' inner' =
      if outer' = outer ∧ inner' = inner then (t.inner? outer' inner').map fun _ => v
      else t.inner? outer' inner' := by
  unfold inner? replaceInner
  rw [entriesAt_edit outer outer' (h := edit inner fun _ => v) rfl]
  by_cases houter : outer' = outer
  · rw [if_pos houter, lookup_edit]
    by_cases hinner : inner' = inner
    · rw [if_pos hinner, if_pos ⟨houter, hinner⟩]
    · rw [if_neg hinner, if_neg fun h => hinner h.2]
  · rw [if_neg houter, if_neg fun h => houter h.1]

/-! ### Entries are added -/

theorem Extends.lookup_eq (h : Extends known t t') (hname : known name) :
    t'.lookup name = t.lookup name := by
  induction h with
  | nil => rfl
  | keep e _ ih => rw [lookup_cons_eq_ite, lookup_cons_eq_ite, ih]
  | add e hunknown _ ih =>
    have hne : name ≠ e.1 := fun heq => hunknown (heq ▸ hname)
    rw [lookup_cons_eq_ite, if_neg hne, ih]

end Table

end CompilerFuzz.Toml
