/-
  CompilerFuzz.Proofs.Toml.Building

  What the statements of a written table build. A header leads to the table, and each entry is
  added to it in turn: changes at one place compose (`within_bind`), so the statements together
  are one change (`Draft.follow_section`), and for a new table that change puts all the entries
  in it at once (`Section.addTo_of_lookup`).
-/
import CompilerFuzz.Proofs.Toml.Documents

namespace CompilerFuzz.Toml

/-! ## Changes to tables -/

namespace Fields

theorem lookup_put_self (key : String) (node : Node) (fields : Fields) :
    (put key node fields).lookup key = some node := by
  induction fields with
  | nil => simp [put]
  | cons field fields ih =>
    obtain ⟨name, part⟩ := field
    by_cases h : name = key
    · simp [put, h]
    · rw [put, if_neg h, List.lookup_cons, beq_false_of_ne (Ne.symm h)]
      exact ih

theorem put_put (key : String) (node node' : Node) (fields : Fields) :
    put key node' (put key node fields) = put key node' fields := by
  induction fields with
  | nil => simp [put]
  | cons field fields ih => by_cases h : field.1 = key <;> simp [put, h, ih]

/-- A new entry comes last. -/
theorem put_of_lookup_eq_none {key : String} {fields : Fields} (h : fields.lookup key = none)
    (node : Node) : put key node fields = fields ++ [(key, node)] := by
  induction fields with
  | nil => rfl
  | cons field fields ih =>
    obtain ⟨name, part⟩ := field
    have hname : name ≠ key := by
      rintro rfl
      simp at h
    rw [List.lookup_cons, beq_false_of_ne hname.symm] at h
    simp [put, hname, ih h]

theorem changeLast_ne_nil {α : Type} (f : α → Option α) (x : α) (xs : List α) :
    changeLast f (x :: xs) ≠ some [] := by
  cases xs with
  | nil => cases hx : f x <;> simp [changeLast, hx]
  | cons y ys => simp [changeLast]

theorem changeLast_bind {α : Type} (f g : α → Option α) (xs : List α) :
    (changeLast f xs).bind (changeLast g) = changeLast (fun x => (f x).bind g) xs := by
  fun_induction changeLast f xs with
  | case1 => rfl
  | case2 x => cases hx : f x <;> simp [changeLast, hx]
  | case3 x y rest ih =>
    rw [changeLast, ← ih]
    cases hrest : changeLast f (y :: rest) with
    | none => rfl
    | some ys =>
      cases ys with
      | nil => exact absurd hrest (changeLast_ne_nil f y rest)
      | cons z zs => rfl

section Within

variable {name : String} {fields inner : Fields} {origin : Origin} {elements : List Fields}

theorem within_new (f : Fields → Option Fields) (path : List String)
    (h : fields.lookup name = none) :
    within f (name :: path) fields =
      (within f path []).map fun inner => put name (.table .passage inner) fields := by
  rw [within, h]

theorem within_table (f : Fields → Option Fields) (path : List String)
    (h : fields.lookup name = some (.table origin inner)) :
    within f (name :: path) fields =
      (within f path inner).map fun inner => put name (.table origin inner) fields := by
  rw [within, h]

theorem within_tables (f : Fields → Option Fields) (path : List String)
    (h : fields.lookup name = some (.tables elements)) :
    within f (name :: path) fields =
      (changeLast (within f path) elements).map fun elements => put name (.tables elements) fields := by
  rw [within, h]

theorem within_value (f : Fields → Option Fields) (path : List String) {v : Value}
    (h : fields.lookup name = some (.value v)) : within f (name :: path) fields = none := by
  rw [within, h]

end Within

/-- Two changes at the same place are one change there. -/
theorem within_bind (f g : Fields → Option Fields) (path : List String) (fields : Fields) :
    (within f path fields).bind (within g path) =
      within (fun fields => (f fields).bind g) path fields := by
  induction path generalizing fields with
  | nil => rfl
  | cons name path ih =>
    -- What the first change puts under `name` is what the second one finds there.
    have hfinds := fun node => lookup_put_self name node fields
    cases hlook : fields.lookup name with
    | none =>
      rw [within_new f path hlook, within_new _ path hlook, ← ih]
      cases within f path [] with
      | none => rfl
      | some inner => simp [within_table g path (hfinds _), put_put]
    | some node =>
      cases node with
      | value v => rw [within_value f path hlook, within_value _ path hlook]; rfl
      | table origin inner =>
        rw [within_table f path hlook, within_table _ path hlook, ← ih]
        cases within f path inner with
        | none => rfl
        | some inner => simp [within_table g path (hfinds _), put_put]
      | tables elements =>
        have hsame : (fun fields => (within f path fields).bind (within g path)) =
            within (fun fields => (f fields).bind g) path := funext ih
        rw [within_tables f path hlook, within_tables _ path hlook, ← hsame, ← changeLast_bind]
        cases changeLast (within f path) elements with
        | none => rfl
        | some elements => simp [within_tables g path (hfinds _), put_put]

theorem within_append (f : Fields → Option Fields) (path path' : List String) :
    within f (path ++ path') = within (within f path') path := by
  induction path with
  | nil => rfl
  | cons name path ih =>
    funext fields
    simp only [List.cons_append, within, ih]

end Fields

/-! ## One table -/

open Fields

/-- The statement that an entry is read as. -/
def assignment (e : String × Entry) : Statement :=
  .assign ⟨[], e.1⟩ e.2.value

/-- Adds an entry to the table under `key`. -/
def addEntry (key : String) (e : String × Entry) : Fields → Option Fields :=
  within (assign true e.1 e.2.value []) [key]

/-- Adds a table with its entries. -/
def Section.addTo (s : Section) (fields : Fields) : Option Fields :=
  (openHere s.header.key fields).bind fun fields =>
    s.entries.foldlM (fun fields e => addEntry s.header.key e fields) fields

/-- Following entries is changing the table that the last header led to. -/
theorem Draft.foldlM_assignment (f : Fields → Option Fields) (parents : List String) (key : String)
    (entries : List (String × Entry)) (root : Fields) :
    ((within f parents root).bind fun root =>
        (entries.map assignment).foldlM Draft.follow ⟨root, parents ++ [key]⟩) =
      (within (fun fields => (f fields).bind fun fields =>
          entries.foldlM (fun fields e => addEntry key e fields) fields) parents root).map
        fun root => ⟨root, parents ++ [key]⟩ := by
  induction entries generalizing f with
  | nil =>
    simp only [List.map_nil, List.foldlM_nil, Option.pure_def, Option.bind_fun_some]
    exact Option.map_eq_bind.symm
  | cons e entries ih =>
    have hfirst : ∀ root, Draft.follow ⟨root, parents ++ [key]⟩ (assignment e) =
        (within (addEntry key e) parents root).map fun root => ⟨root, parents ++ [key]⟩ := by
      intro root
      simp only [assignment, Draft.follow, addEntry, within_append]
    have hrest := ih fun fields => (f fields).bind (addEntry key e)
    rw [← within_bind, Option.bind_assoc] at hrest
    simp only [List.map_cons, List.foldlM_cons, hfirst, Option.bind_eq_bind, Option.bind_map]
    simp only [Option.bind_assoc] at hrest
    exact hrest

/-- The statements of a table are one change at the place that its header leads to. -/
theorem Draft.follow_section {s : Section} (h : s.path ≠ []) (d : Draft) :
    s.statements.foldlM Draft.follow d =
      (within s.addTo s.header.parents d.root).map fun root => ⟨root, s.path⟩ := by
  have hentries := Draft.foldlM_assignment (openHere s.header.key) s.header.parents s.header.key
    s.entries d.root
  rw [show s.header.parents ++ [s.header.key] = s.path from Section.all_header h] at hentries
  rw [Section.statements, List.foldlM_cons]
  simp only [Draft.follow, openTable, Option.bind_eq_bind, Option.bind_map]
  rw [Section.all_header h]
  exact hentries

/-- The entries that a table is built of. -/
def Section.fields (s : Section) : Fields :=
  s.entries.map fun e => (e.1, .value e.2.value)

theorem addEntry_of_notMem {key : String} {e : String × Entry} {done : Fields}
    (h : e.1 ∉ done.map Prod.fst) (fields : Fields) :
    addEntry key e (put key (.table .header done) fields) =
      some (put key (.table .header (done ++ [(e.1, .value e.2.value)])) fields) := by
  have hnew : done.lookup e.1 = none := by
    refine List.lookup_eq_none_iff.2 fun field hfield => ?_
    simpa using fun heq => h (List.mem_map.2 ⟨field, hfield, Eq.symm heq⟩)
  rw [addEntry, within_table _ _ (lookup_put_self ..)]
  simp [within, assign, hnew, put_of_lookup_eq_none hnew, put_put]

/-- Entries with new keys are added one after another. -/
theorem foldlM_addEntry {key : String} {entries : List (String × Entry)} (done : Fields)
    (hnodup : (done.map Prod.fst ++ entries.map Prod.fst).Nodup) (fields : Fields) :
    entries.foldlM (fun fields e => addEntry key e fields) (put key (.table .header done) fields) =
      some (put key (.table .header (done ++ entries.map fun e => (e.1, .value e.2.value))) fields) := by
  induction entries generalizing done with
  | nil => simp
  | cons e entries ih =>
    have hnew : e.1 ∉ done.map Prod.fst := by
      rw [List.map_cons, List.nodup_append] at hnodup
      exact fun hm => hnodup.2.2 _ hm _ List.mem_cons_self rfl
    rw [List.foldlM_cons, addEntry_of_notMem hnew]
    have hrest := ih (done ++ [(e.1, .value e.2.value)]) (by simpa using hnodup)
    simpa using hrest

/-- A new table holds all its entries, and comes last. -/
theorem Section.addTo_of_lookup {s : Section} (hkeys : (s.entries.map Prod.fst).Nodup)
    {fields : Fields} (h : fields.lookup s.header.key = none) :
    s.addTo fields = some (fields ++ [(s.header.key, .table .header s.fields)]) := by
  rw [Section.addTo, openHere, h, Option.bind_some, foldlM_addEntry [] hkeys, List.nil_append,
    put_of_lookup_eq_none h]
  rfl

/-- The statements of a new table at the top of a document add it to the document. -/
theorem Draft.follow_top {s : Section} (hs : s.Plain) {name : String} (hpath : s.path = [name])
    {d : Draft} (hnew : d.root.lookup name = none) :
    s.statements.foldlM Draft.follow d =
      some ⟨d.root ++ [(name, .table .header s.fields)], s.path⟩ := by
  have hheader : s.header = ⟨[], name⟩ := by
    rw [Section.header, hpath]
    rfl
  have hkey : s.header.key = name := by rw [hheader]
  rw [Draft.follow_section hs.named, hheader, within,
    Section.addTo_of_lookup hs.keys_nodup (by rwa [hkey]), hkey]
  rfl

/-! ## Finished tables -/

/-- The table that a section is read as. -/
def Section.table (s : Section) : Table :=
  s.entries.map fun e => (e.1, e.2.value)

theorem sealFields_append (fields fields' : Fields) :
    sealFields (fields ++ fields') = sealFields fields ++ sealFields fields' := by
  induction fields with
  | nil => rfl
  | cons field fields ih =>
    obtain ⟨key, node⟩ := field
    simp [sealFields, ih]

theorem sealFields_fields (s : Section) : sealFields s.fields = s.table := by
  unfold Section.fields Section.table
  induction s.entries with
  | nil => rfl
  | cons e entries ih => simp [sealFields, Node.seal, ih]

end CompilerFuzz.Toml
