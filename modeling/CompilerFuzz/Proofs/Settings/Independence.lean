/-
  CompilerFuzz.Proofs.Settings.Independence

  Each field of settings is read by itself.

    * `Describes` and `Refused` say what becomes of a document, and of every text that is read as
      it. What a changed document describes is told by the values that it then has for the
      fields (`Describes.change`).
    * A key or a section that is taken away, and a value that is replaced, is seen by its own
      fields alone (`Field.value?_remove`, `Field.value?_without`, `Field.value?_replace`).
    * What is added under names that are not known is seen by no field (`Padded.value?_eq`).
-/
import CompilerFuzz.Proofs.Settings.Fields
import Mathlib.Logic.Function.Basic

namespace CompilerFuzz.Settings

open CompilerFuzz.Toml

/-! ## Documents and what they describe -/

/-- A document with tables for its sections is accepted and describes the settings: so does every
    text that is read as this document. -/
structure Describes (t : Table) (s : Settings) : Prop where
  tables : Sectioned t
  accepted : ofTable? t = some s
  texts : ∀ text : String, Toml.read? text.toList = some t → ofText text = .ok s

/-- A document is refused, and so is every text that is read as this document. -/
structure Refused (t : Table) : Prop where
  rejected : ofTable? t = none
  texts : ∀ text : String, Toml.read? text.toList = some t →
    ofText text = .error (.unparsable .unfitting)

variable {t t' : Table} {s s' : Settings}

theorem Describes.of_ofTable? (ht : Sectioned t) (h : ofTable? t = some s) : Describes t s := by
  refine ⟨ht, h, fun text htext => ?_⟩
  unfold ofText
  simp only [htext, h]

theorem Refused.of_ofTable? (h : ofTable? t = none) : Refused t := by
  refine ⟨h, fun text htext => ?_⟩
  unfold ofText
  simp only [htext, h]

/-- A text that is accepted is a document that describes its settings. -/
theorem Describes.of_ofText {text : String} (htext : Toml.read? text.toList = some t)
    (ht : Sectioned t) (h : ofText text = .ok s) : Describes t s := by
  apply Describes.of_ofTable? ht
  unfold ofText at h
  rw [htext] at h
  cases hs : ofTable? t with
  | none => simp [hs] at h
  | some s' =>
    simp only [hs] at h
    cases h
    rfl

/-- The two settings agree in all fields but the changed ones. -/
def AgreeBut (changed : Field → Prop) (s s' : Settings) : Prop :=
  ∀ f : Field, ¬ changed f → f.get s' = f.get s

/-- Settings are told by those they agree with and by the changed fields. -/
theorem AgreeBut.eq_of_changed {changed : Field → Prop} {s s' s'' : Settings}
    (h : AgreeBut changed s s') (h' : AgreeBut changed s s'')
    (hchanged : ∀ f : Field, changed f → f.get s' = f.get s'') : s' = s'' := by
  refine eq_of_get_eq fun f => ?_
  by_cases hf : changed f
  · exact hchanged f hf
  · exact (h f hf).trans (h' f hf).symm

/-- What a document describes after a change is told by the values that it then has. -/
theorem Describes.change (ht : Sectioned t') {value : (f : Field) → f.kind.Carrier}
    (h : ∀ f : Field, f.ofValue? (f.value? t') = some (value f)) :
    Describes t' (ofFields value) := by
  apply Describes.of_ofTable? ht
  refine (ofTable?_eq_some_iff ht).2 fun f => ?_
  rw [h f, get_ofFields]

theorem Describes.ofValue? (h : Describes t s) (f : Field) :
    f.ofValue? (f.value? t) = some (f.get s) :=
  (ofTable?_eq_some_iff h.tables).1 h.accepted f

/-- Fields without a value are the built-in ones, and the others stay. -/
theorem Describes.forget (h : Describes t s) (ht : Sectioned t') (lost : Field → Prop)
    [DecidablePred lost] (hvalue : ∀ f : Field, f.value? t' = if lost f then none else f.value? t) :
    ∃ s', Describes t' s' ∧ (∀ f : Field, lost f → f.get s' = f.get .default) ∧
      AgreeBut lost s s' := by
  refine ⟨ofFields fun f => if lost f then f.get .default else f.get s, .change ht fun f => ?_,
    fun f hf => ?_, fun f hf => ?_⟩
  · rw [hvalue]
    by_cases hf : lost f
    · rw [if_pos hf, if_pos hf]
      rfl
    · rw [if_neg hf, if_neg hf]
      exact h.ofValue? f
  · rw [get_ofFields, if_pos hf]
  · rw [get_ofFields, if_neg hf]

/-- A document with the same values describes the same settings. -/
theorem Describes.of_value?_eq (h : Describes t s) (ht : Sectioned t')
    (hvalue : ∀ f : Field, f.value? t' = f.value? t) : Describes t' s := by
  have hread : ∀ f : Field, f.ofValue? (f.value? t') = some (f.get s) := by
    intro f
    rw [hvalue]
    exact h.ofValue? f
  have hchanged : Describes t' (ofFields fun f => f.get s) := .change ht hread
  rwa [ofFields_get] at hchanged

/-- A value that does not fit its field is the end of the document, whatever else is in it. -/
theorem Refused.of_value? {f : Field} {v : Value} (hv : f.value? t = some v)
    (hmisfit : f.Misfit v) : Refused t := by
  apply Refused.of_ofTable?
  refine Option.eq_none_iff_forall_ne_some.2 fun s hs => ?_
  -- the section of `f` is a table, since it has a value for `f`; the others need not be
  have hread : f.sectionName.Reads t s := ofTable?_eq_some_iff_reads.1 hs f.sectionName
  have hvalue := (SectionName.reads_iff (Table.tableAt_of_inner? hv)).1 hread f rfl
  rw [hv] at hvalue
  exact hmisfit _ (FieldKind.decode?_eq_some_iff.1 hvalue)

/-! ## Changes to a document -/

theorem SectionName.text_inj {n n' : SectionName} (h : n.text = n'.text) : n = n' := by
  cases n <;> cases n' <;> first | rfl | exact absurd h (by decide)

theorem Field.key_inj {f g : Field} (h : f.key = g.key) : f = g := by
  cases f <;> cases g <;> first | rfl | exact absurd h (by decide)

namespace Field

/-- The document without the key of a field. -/
def remove (f : Field) (t : Table) : Table :=
  t.withoutInner f.sectionName.text f.key

/-- The document with another value for a field, if it has one. -/
def replace (f : Field) (v : Value) (t : Table) : Table :=
  t.replaceInner f.sectionName.text f.key v

variable {f g : Field}

/-- A field is alone at its place. -/
theorem place_iff : g.sectionName.text = f.sectionName.text ∧ g.key = f.key ↔ g = f := by
  constructor
  · intro h
    exact key_inj h.2
  · rintro rfl
    exact ⟨rfl, rfl⟩

theorem value?_remove (f g : Field) (t : Table) :
    g.value? (f.remove t) = if g = f then none else g.value? t :=
  (Table.inner?_withoutInner ..).trans (if_congr place_iff rfl rfl)

theorem value?_replace (f g : Field) (v : Value) (t : Table) :
    g.value? (f.replace v t) = if g = f then (g.value? t).map fun _ => v else g.value? t :=
  (Table.inner?_replaceInner ..).trans (if_congr place_iff rfl rfl)

theorem value?_replace_self {v : Value} {t : Table} (h : f.value? t ≠ none) :
    f.value? (f.replace v t) = some v := by
  obtain ⟨w, hw⟩ := Option.ne_none_iff_exists'.1 h
  rw [value?_replace, if_pos rfl, hw, Option.map_some]

theorem value?_without (n : SectionName) (g : Field) (t : Table) :
    g.value? (t.without n.text) = if g.sectionName = n then none else g.value? t := by
  have hname : g.sectionName.text = n.text ↔ g.sectionName = n :=
    ⟨SectionName.text_inj, congrArg SectionName.text⟩
  exact (Table.inner?_without ..).trans (if_congr hname rfl rfl)

end Field

theorem Describes.remove (h : Describes t s) (f : Field) :
    ∃ s', Describes (f.remove t) s' ∧ f.get s' = f.get .default ∧ AgreeBut (· = f) s s' := by
  have ht : Sectioned (f.remove t) := fun n => Table.tableAt_edit _ _ (h.tables n)
  obtain ⟨s', hs', hlost, hkept⟩ := h.forget ht (· = f) fun g => f.value?_remove g t
  exact ⟨s', hs', hlost f rfl, hkept⟩

theorem Describes.without (h : Describes t s) (n : SectionName) :
    ∃ s', Describes (t.without n.text) s' ∧
      (∀ f : Field, f.sectionName = n → f.get s' = f.get .default) ∧
      AgreeBut (fun f => f.sectionName = n) s s' := by
  have ht : Sectioned (t.without n.text) := fun n' => Table.tableAt_without _ (h.tables n')
  exact h.forget ht (fun f => f.sectionName = n) fun f => f.value?_without n t

theorem Describes.replace (h : Describes t s) {f : Field} {v : Value} {a : f.kind.Carrier}
    (hthere : f.value? t ≠ none) (hfits : f.kind.Fits v a) :
    ∃ s', Describes (f.replace v t) s' ∧ f.get s' = a ∧ AgreeBut (· = f) s s' := by
  have ht : Sectioned (f.replace v t) := fun n => Table.tableAt_edit _ _ (h.tables n)
  obtain ⟨w, hw⟩ := Option.ne_none_iff_exists'.1 hthere
  refine ⟨ofFields (Function.update (fun g => g.get s) f a), .change ht fun g => ?_, ?_,
    fun g hg => ?_⟩
  -- `f` is read from the new value, every other field from the value that it had
  · rw [Field.value?_replace]
    by_cases hg : g = f
    · subst hg
      rw [if_pos rfl, hw, Function.update_self]
      exact FieldKind.decode?_eq_some_iff.2 hfits
    · rw [if_neg hg, Function.update_of_ne hg]
      exact h.ofValue? g
  · rw [get_ofFields, Function.update_self]
  · rw [get_ofFields, Function.update_of_ne hg]

/-! ## Entries that are not known -/

/-- A section has a field with this key. -/
def SectionName.Knows (n : SectionName) (key : String) : Prop :=
  ∃ f : Field, f.sectionName = n ∧ f.key = key

/-- The second document is the first with entries added under names that are not known: at the
    top, or in a section, which may be opened for them. -/
inductive Padded : Table → Table → Prop
  | nil : Padded [] []
  | keep (e : String × Value) {t t' : Table} (h : Padded t t') : Padded (e :: t) (e :: t')
  | add (e : String × Value) {t t' : Table} (hname : ∀ n : SectionName, e.1 ≠ n.text)
      (h : Padded t t') : Padded t (e :: t')
  | inside (n : SectionName) {entries entries' t t' : Table}
      (hentries : entries.Extends n.Knows entries') (h : Padded t t') :
      Padded ((n.text, .table entries) :: t) ((n.text, .table entries') :: t')
  | opened (n : SectionName) {entries' t t' : Table} (hnew : t.lookup n.text = none)
      (hentries : Table.Extends n.Knows [] entries') (h : Padded t t') :
      Padded t ((n.text, .table entries') :: t')

theorem tableAt_cons {name : String} {e : String × Value} :
    Table.TableAt name (e :: t) ↔
      if name = e.1 then ∃ entries, e.2 = .table entries else t.TableAt name := by
  unfold Table.TableAt
  rw [lookup_cons_eq_ite]
  by_cases h : name = e.1
  · rw [if_pos h, if_pos h]
    constructor
    · intro hv
      exact hv e.2 rfl
    · rintro hv v ⟨⟩
      exact hv
  · rw [if_neg h, if_neg h]

/-- A field sees its own section and nothing else. -/
theorem Field.value?_congr {f : Field}
    (h : t'.lookup f.sectionName.text = t.lookup f.sectionName.text) : f.value? t' = f.value? t := by
  unfold value? Table.inner?
  rw [Table.entriesAt_congr h]

theorem Field.value?_of_lookup_eq_none {f : Field} (h : t.lookup f.sectionName.text = none) :
    f.value? t = none := by
  unfold value? Table.inner?
  rw [Table.entriesAt_of_lookup_eq_none h]
  rfl

theorem Field.value?_cons_of_ne {f : Field} {e : String × Value}
    (hne : f.sectionName.text ≠ e.1) (t : Table) : f.value? (e :: t) = f.value? t :=
  value?_congr ((lookup_cons_eq_ite f.sectionName.text e t).trans (if_neg hne))

theorem Field.value?_cons_of_eq {f : Field} {name : String} (heq : f.sectionName.text = name)
    (entries t : Table) : f.value? ((name, .table entries) :: t) = entries.lookup f.key := by
  have hlookup := (lookup_cons_eq_ite f.sectionName.text (name, .table entries) t).trans (if_pos heq)
  unfold value? Table.inner?
  rw [Table.entriesAt_of_lookup hlookup]

/-- Where there were tables before, there are tables afterwards, by induction on what is added. -/
theorem Padded.tableAt (h : Padded t t') {n : SectionName} (ht : t.TableAt n.text) :
    t'.TableAt n.text := by
  induction h with
  | nil => exact ht
  | keep e _ ih =>
    rw [tableAt_cons] at ht ⊢
    by_cases hname : n.text = e.1
    · rwa [if_pos hname] at ht ⊢
    · rw [if_neg hname] at ht ⊢
      exact ih ht
  -- what is new is no section, and a section that gets entries is a table as before
  | add e hunknown _ ih =>
    rw [tableAt_cons, if_neg (hunknown n).symm]
    exact ih ht
  | inside n₀ _ _ ih =>
    rw [tableAt_cons] at ht ⊢
    by_cases hname : n.text = n₀.text
    · rw [if_pos hname]
      exact ⟨_, rfl⟩
    · rw [if_neg hname] at ht ⊢
      exact ih ht
  | opened n₀ _ _ _ ih =>
    rw [tableAt_cons]
    by_cases hname : n.text = n₀.text
    · rw [if_pos hname]
      exact ⟨_, rfl⟩
    · rw [if_neg hname]
      exact ih ht

/-- No field finds another value, by induction on what is added. -/
theorem Padded.value?_eq (h : Padded t t') (f : Field) : f.value? t' = f.value? t := by
  induction h with
  | nil => rfl
  | @keep e t t' _ ih =>
    by_cases hname : f.sectionName.text = e.1
    · have hlookup : (e :: t').lookup f.sectionName.text = (e :: t).lookup f.sectionName.text := by
        rw [lookup_cons_eq_ite, if_pos hname, lookup_cons_eq_ite, if_pos hname]
      exact Field.value?_congr hlookup
    · rw [Field.value?_cons_of_ne hname, Field.value?_cons_of_ne hname, ih]
  -- a field looks into its own section only
  | add e hunknown _ ih => rw [Field.value?_cons_of_ne (hunknown f.sectionName).symm, ih]
  | inside n₀ hentries _ ih =>
    by_cases hname : f.sectionName.text = n₀.text
    · have hknown : n₀.Knows f.key := ⟨f, SectionName.text_inj hname, rfl⟩
      rw [Field.value?_cons_of_eq hname, Field.value?_cons_of_eq hname,
        hentries.lookup_eq hknown]
    · rw [Field.value?_cons_of_ne hname, Field.value?_cons_of_ne hname, ih]
  | @opened n₀ entries' t t' hnew hentries _ ih =>
    by_cases hname : f.sectionName.text = n₀.text
    · -- there was no such section, and the one that is there now has nothing for a field
      have hknown : n₀.Knows f.key := ⟨f, SectionName.text_inj hname, rfl⟩
      have hnone : f.value? t = none := Field.value?_of_lookup_eq_none (hname ▸ hnew)
      rw [Field.value?_cons_of_eq hname, hentries.lookup_eq hknown, hnone]
      rfl
    · rw [Field.value?_cons_of_ne hname, ih]

theorem Describes.padded (h : Describes t s) (hpadded : Padded t t') : Describes t' s :=
  h.of_value?_eq (fun n => hpadded.tableAt (h.tables n)) hpadded.value?_eq

theorem Padded.refl (t : Table) : Padded t t := by
  induction t with
  | nil => exact .nil
  | cons e t ih => exact .keep e ih

/-! ## Written settings -/

/-- The text of settings is read as their table. -/
theorem read?_text (s : Settings) : Toml.read? s.text.toList = some s.table := by
  rw [text, String.toList_ofList, read?_write s.plain_sections, s.build?_sections]

theorem sectioned_table (s : Settings) : Sectioned s.table := by
  intro n v hv
  cases n with
  | toolchain => exact ⟨_, (Option.some.inj hv).symm⟩
  | workspace => exact ⟨_, (Option.some.inj hv).symm⟩
  | campaign => exact ⟨_, (Option.some.inj hv).symm⟩

/-! ## Independence -/

/-- The fields of settings are read independently of each other, from any document with tables
    for its sections, and so from any text that is read as such a document. Without a key its
    field is the built-in one, without a section all fields of the section are, and no other
    field changes; entries that are not known change nothing; another value that fits its field
    changes this field alone. A value that does not fit its field is refused with everything
    around it, be it of another type, a level or a count of attempts out of range, or a budget
    that is no span. -/
theorem fields_independent :
    (∀ (text : String) (t : Table) (s : Settings), Toml.read? text.toList = some t →
      Sectioned t → ofText text = .ok s → Describes t s) ∧
    (∀ (t : Table) (s : Settings), Describes t s →
      (∀ f : Field, ∃ s', Describes (f.remove t) s' ∧ f.get s' = f.get .default ∧
        AgreeBut (· = f) s s') ∧
      (∀ n : SectionName, ∃ s', Describes (t.without n.text) s' ∧
        (∀ f : Field, f.sectionName = n → f.get s' = f.get .default) ∧
        AgreeBut (fun f => f.sectionName = n) s s') ∧
      (∀ t' : Table, Padded t t' → Describes t' s) ∧
      ∀ (f : Field) (v : Value) (a : f.kind.Carrier), f.value? t ≠ none → f.kind.Fits v a →
        ∃ s', Describes (f.replace v t) s' ∧ f.get s' = a ∧ AgreeBut (· = f) s s') ∧
    (∀ (t : Table) (f : Field) (v : Value), f.value? t = some v → f.Misfit v → Refused t) ∧
    (∀ n : Int, n < 0 ∨ 255 < n → Field.level.Misfit (.integer n)) ∧
    (∀ n : Int, n < 0 ∨ 4294967295 < n →
      Field.policy.Misfit (.table [("retry", .table [("attempts", .integer n)])])) ∧
    ∀ text : String, Span.read? text.toList = none → Field.timeBudget.Misfit (.string text) := by
  refine ⟨fun text t s htext ht h => .of_ofText htext ht h, fun t s h => ?_,
    fun t f v hv hmisfit => .of_value? hv hmisfit, fun n h => misfit_level h,
    fun n h => misfit_attempts h, fun text h => misfit_timeBudget h⟩
  refine ⟨fun f => h.remove f, fun n => h.without n, fun t' hpadded => h.padded hpadded, ?_⟩
  intro f v a hthere hfits
  exact h.replace hthere hfits

/-- The settings of a document that has all fields, under changes to its campaign. -/
theorem fields_independent_of_written :
    let s : Settings :=
      { Settings.default with campaign := ⟨Span.ofSecs 300, 2, some "gvn", .retry 3⟩ }
    Describes s.table s ∧
      Describes (Field.timeBudget.remove s.table)
        { s with campaign := { s.campaign with timeBudget := Span.ofSecs 60 } } ∧
      Describes (s.table.without "campaign") .default ∧
      Describes (("seed", .integer 7) :: s.table) s ∧
      Describes (Field.level.replace (.integer 1) s.table)
        { s with campaign := { s.campaign with level := 1 } } ∧
      Refused (Field.level.replace (.integer 256) s.table) ∧
      Refused (Field.policy.replace
        (.table [("retry", .table [("attempts", .integer 4294967296)])]) s.table) ∧
      Refused (Field.timeBudget.replace (.string "") s.table) := by
  intro s
  obtain ⟨hdescribes, hchange, hrefused, hlevel, hattempts, hbudget⟩ := fields_independent
  have hs : Describes s.table s :=
    hdescribes s.text s.table s s.read?_text (sectioned_table s) s.ofText_text
  obtain ⟨hremove, hwithout, hpadded, hreplace⟩ := hchange s.table s hs
  have hbudget? : Field.timeBudget.value? s.table ≠ none := Option.some_ne_none _
  have hlevel? : Field.level.value? s.table ≠ none := Option.some_ne_none _
  have hpolicy? : Field.policy.value? s.table ≠ none := Option.some_ne_none _
  refine ⟨hs, ?_, ?_, ?_, ?_, ?_, ?_, ?_⟩
  · -- the fields determine the settings: one has its default again, the others are as before
    obtain ⟨s', hs', hlost, hkept⟩ := hremove .timeBudget
    have heq : s' = { s with campaign := { s.campaign with timeBudget := Span.ofSecs 60 } } := by
      refine hkept.eq_of_changed (fun f hf => ?_) fun f hf => ?_
      · cases f <;> first | rfl | exact absurd rfl hf
      · rw [show f = .timeBudget from hf, hlost]
        rfl
    exact heq ▸ hs'
  · obtain ⟨s', hs', hlost, hkept⟩ := hwithout .campaign
    have heq : s' = .default := hkept.eq_of_changed
      (fun f hf => by cases f <;> first | rfl | exact absurd rfl hf) hlost
    exact heq ▸ hs'
  · have hseed : ∀ n : SectionName, "seed" ≠ n.text := by
      intro n
      cases n <;> decide
    exact hpadded _ (.add _ hseed (.refl s.table))
  · obtain ⟨s', hs', hset, hkept⟩ := hreplace .level (.integer 1) 1 hlevel? rfl
    have heq : s' = { s with campaign := { s.campaign with level := 1 } } := by
      refine hkept.eq_of_changed (fun f hf => ?_) fun f hf => ?_
      · cases f <;> first | rfl | exact absurd rfl hf
      · rw [show f = .level from hf, hset]
        rfl
    exact heq ▸ hs'
  · exact hrefused _ .level _ (Field.value?_replace_self hlevel?) (hlevel _ (by decide))
  · exact hrefused _ .policy _ (Field.value?_replace_self hpolicy?) (hattempts _ (by decide))
  · exact hrefused _ .timeBudget _ (Field.value?_replace_self hbudget?) (hbudget _ rfl)

end CompilerFuzz.Settings
