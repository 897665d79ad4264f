/-
  CompilerFuzz.Proofs.Toml.Documents

  A written document is read as the statements it was written from (`statements?_write`): each
  header and each entry is one line, and the blank lines between the tables are passed over.
-/
import CompilerFuzz.Proofs.Toml.Values

namespace CompilerFuzz.Toml

open CompilerFuzz.Text CompilerFuzz.Text.Front

/-! ## Keys -/

/-- A key that is written without quotes. -/
def Bare (name : String) : Prop :=
  name.toList ≠ [] ∧ name.toList.all isBareChar = true

instance (name : String) : Decidable (Bare name) :=
  inferInstanceAs (Decidable (_ ∧ _))

/-- What follows a bare key: no character that could belong to it. -/
def EndsKey (tail : List Char) : Prop :=
  ∀ c ∈ tail.head?, isBareChar c = false

theorem endsKey_cons {c : Char} (h : isBareChar c = false) (cs : List Char) :
    EndsKey (c :: cs) := by
  intro d hd
  obtain rfl : c = d := Option.some.inj hd
  exact h

theorem Bare.chars {name : String} (h : Bare name) :
    ∀ c ∈ name.toList, isBareChar c = true :=
  List.all_eq_true.1 h.2

theorem Bare.front {name : String} (h : Bare name) :
    ∃ c cs, name.toList = c :: cs ∧ isBareChar c = true := by
  cases hname : name.toList with
  | nil => exact absurd hname h.1
  | cons c cs => exact ⟨c, cs, rfl, h.chars c (hname ▸ List.mem_cons_self)⟩

theorem inked_of_isBareChar {c : Char} (h : isBareChar c = true) : Inked c :=
  Inked.of_apply h (by decide)

theorem bareKey?_append {name : String} (h : Bare name) {tail : List Char} (htail : EndsKey tail) :
    Yields (bareKey? (name.toList ++ tail)) name.toList tail := by
  have hlt := length_dropWhile_append_lt h.1 h.chars htail
  exact ⟨⟨_, _, hlt⟩, dif_pos hlt, takeWhile_append_stop h.chars htail,
    dropWhile_append_stop h.chars htail⟩

theorem key?_append {name : String} (h : Bare name) {tail : List Char} (htail : EndsKey tail) :
    Yields (key? (name.toList ++ tail)) name tail := by
  have hbare := bareKey?_append h htail
  obtain ⟨c, cs, hname, hc⟩ := h.front
  have hnone : lineQuoted? (name.toList ++ tail) = none := by
    rw [hname, List.cons_append, lineQuoted?.eq_3]
    · exact fun rest heq => ne_of_apply hc (by decide) (List.cons.inj heq).1
    · exact fun rest heq => ne_of_apply hc (by decide) (List.cons.inj heq).1
  rw [key?, hnone]
  exact hbare.map (fun r hr => by simp [hr]) fun r => rfl

theorem skipSpace_bare {name : String} (h : Bare name) (tail : List Char) :
    skipSpace (name.toList ++ tail) = name.toList ++ tail := by
  obtain ⟨c, cs, hname, hc⟩ := h.front
  rw [hname]
  exact skipSpace_of_inked (inked_of_isBareChar hc) _

theorem dotted?_last {name : String} (h : Bare name) {tail : List Char} (htail : EndsKey tail)
    (hdot : afterDot? (skipSpace tail) = none) :
    Yields (dotted? (name.toList ++ tail)) ⟨[], name⟩ (skipSpace tail) := by
  have hkey := key?_append h htail
  rw [← skipSpace_bare h tail] at hkey
  obtain ⟨r, hr, hvalue, hrest⟩ := hkey
  rw [dotted?]
  simp only [hr]
  split
  · next heq => rw [hrest, hdot] at heq; cases heq
  · exact ⟨_, rfl, congrArg (KeyPath.mk []) hvalue, congrArg skipSpace hrest⟩

theorem dotted?_more {name : String} (h : Bare name) {next rest : List Char} {p : KeyPath}
    (hp : Yields (dotted? next) p rest) :
    Yields (dotted? (name.toList ++ '.' :: next)) (p.push name) rest := by
  have hdot : EndsKey ('.' :: next) := endsKey_cons (by decide) next
  have hkey := key?_append h hdot
  rw [← skipSpace_bare h] at hkey
  obtain ⟨r, hr, hvalue, hrest⟩ := hkey
  have hafter : afterDot? (skipSpace r.rest) = some next := by
    rw [hrest]
    rfl
  rw [dotted?]
  simp only [hr]
  split
  · next heq =>
    rw [hafter] at heq
    cases heq
    exact hp.map (fun r' hr' => by
      show KeyPath.push r.value r'.value = _
      rw [hvalue, hr']) fun r' => rfl
  · next heq => rw [hafter] at heq; cases heq

/-- The written form of a path: its keys with dots between them. -/
def KeyPath.text (p : KeyPath) : List Char :=
  (String.intercalate "." p.all).toList

theorem KeyPath.text_single (key : String) : KeyPath.text ⟨[], key⟩ = key.toList := by
  simp [KeyPath.text, KeyPath.all]

theorem KeyPath.text_push (parent : String) (p : KeyPath) :
    (p.push parent).text = parent.toList ++ '.' :: p.text := by
  obtain ⟨parents, key⟩ := p
  cases parents <;> simp [KeyPath.text, KeyPath.all, KeyPath.push, String.toList_intercalate,
    List.intercalate]

theorem KeyPath.all_push (parent : String) (p : KeyPath) : (p.push parent).all = parent :: p.all :=
  rfl

theorem KeyPath.text_front {p : KeyPath} (h : ∀ name ∈ p.all, Bare name) :
    ∃ c cs, p.text = c :: cs ∧ isBareChar c = true := by
  obtain ⟨parents, key⟩ := p
  cases parents with
  | nil =>
    obtain ⟨c, cs, hkey, hc⟩ := (h key List.mem_cons_self).front
    exact ⟨c, cs, by rw [KeyPath.text_single, hkey], hc⟩
  | cons parent parents =>
    obtain ⟨c, cs, hparent, hc⟩ := (h parent List.mem_cons_self).front
    have htext := KeyPath.text_push parent ⟨parents, key⟩
    rw [hparent] at htext
    exact ⟨c, _, htext, hc⟩

/-- A path of bare keys is read, and the blanks behind it with it. -/
theorem dotted?_text {p : KeyPath} (h : ∀ name ∈ p.all, Bare name) {tail : List Char}
    (htail : EndsKey tail) (hdot : afterDot? (skipSpace tail) = none) :
    Yields (dotted? (p.text ++ tail)) p (skipSpace tail) := by
  obtain ⟨parents, key⟩ := p
  induction parents with
  | nil =>
    rw [KeyPath.text_single]
    exact dotted?_last (h key List.mem_cons_self) htail hdot
  | cons parent parents ih =>
    have hpush : (⟨parent :: parents, key⟩ : KeyPath) = KeyPath.push parent ⟨parents, key⟩ := rfl
    rw [hpush, KeyPath.all_push, List.forall_mem_cons] at h
    rw [hpush, KeyPath.text_push, List.append_assoc]
    exact dotted?_more h.1 (ih h.2)

theorem keyPath?_text {p : KeyPath} (h : ∀ name ∈ p.all, Bare name) (hsize : p.size < maxPathSize)
    {tail : List Char} (htail : EndsKey tail) (hdot : afterDot? (skipSpace tail) = none) :
    Yields (keyPath? (p.text ++ tail)) p (skipSpace tail) := by
  obtain ⟨r, hr, hvalue, hrest⟩ := dotted?_text h htail hdot
  rw [keyPath?, hr]
  simp only [hvalue, if_pos hsize]
  exact ⟨r, rfl, hvalue, hrest⟩

/-! ## Lines -/

/-- What is read up to the end of a line is read with it. -/
theorem endingLine?_newline {α : Type} {cs rest : List Char} {r : Front α cs}
    (h : r.rest = '\n' :: rest) : Yields (endingLine? r) r.value rest := by
  have hend : lineEnd? r.rest = some rest := by
    rw [h]
    rfl
  unfold endingLine?
  split
  · next heq =>
    rw [hend] at heq
    cases heq
    exact ⟨_, rfl, rfl, rfl⟩
  · next heq => rw [hend] at heq; cases heq

/-- The header of a table is read with its line. -/
theorem statement?_header {p : KeyPath} (h : ∀ name ∈ p.all, Bare name)
    (hsize : p.size < maxPathSize) (rest : List Char) :
    Yields (statement? ('[' :: (p.text ++ ']' :: '\n' :: rest))) (.table p) rest := by
  have hkey : EndsKey (']' :: '\n' :: rest) := endsKey_cons (by decide) _
  have hheader : Yields (headerPath? [']'] (p.text ++ ']' :: '\n' :: rest)) p rest := by
    obtain ⟨k, hk, hvalue, hrest⟩ := keyPath?_text h hsize hkey rfl
    have hclosing : [']'].isPrefixOf k.rest = true := by
      rw [hrest]
      rfl
    rw [headerPath?]
    simp only [hk, if_pos hclosing, ← hvalue]
    exact endingLine?_newline (congrArg (List.drop 1) hrest)
  obtain ⟨c, cs, htext, hc⟩ := KeyPath.text_front h
  rw [htext, List.cons_append] at hheader ⊢
  rw [statement?.eq_2 _ (fun more heq => ne_of_apply hc (by decide) (List.cons.inj heq).1)]
  exact hheader.map (fun r hr => congrArg Statement.table hr) fun r => rfl

theorem writeEntry_front {e : String × Entry} (h : Bare e.1) (rest : List Char) :
    ∃ c cs, writeEntry e ++ rest = c :: cs ∧ isBareChar c = true := by
  obtain ⟨c, cs, hname, hc⟩ := h.front
  exact ⟨c, _, by rw [writeEntry, hname]; rfl, hc⟩

theorem entry?_write {e : String × Entry} (hkey : Bare e.1) (hrange : e.2.InRange)
    (rest : List Char) :
    Yields ( entry? value? (writeEntry e ++ rest)) (⟨[], e.1⟩, e.2.value) ('\n' :: rest) := by
  have htext : writeEntry e ++ rest =
      KeyPath.text ⟨[], e.1⟩ ++ ' ' :: '=' :: ' ' :: (e.2.write ++ '\n' :: rest) := by
    simp [writeEntry, KeyPath.text_single]
  have hends : EndsKey (' ' :: '=' :: ' ' :: (e.2.write ++ '\n' :: rest)) :=
    endsKey_cons (by decide) _
  have hbare : ∀ name ∈ KeyPath.all ⟨[], e.1⟩, Bare name := fun name hname => by
    rwa [List.mem_singleton.1 hname]
  -- the blank before a value is the only one, as a value starts with something to be seen
  have hskip : skipSpace (' ' :: (e.2.write ++ '\n' :: rest)) = e.2.write ++ '\n' :: rest := by
    obtain ⟨c, cs, hwrite, hc⟩ := e.2.write_front
    rw [hwrite]
    exact skipSpace_of_inked hc _
  rw [htext]
  obtain ⟨k, hk, hvalue, hrest⟩ := keyPath?_text hbare (show 1 < maxPathSize by decide) hends rfl
  rw [ entry?]
  simp only [hk]
  have hread := value?_write hrange rest
  rw [← hskip] at hread
  split
  · next heq =>
    rw [hrest] at heq
    cases heq
    exact hread.map (fun r hr => Prod.ext hvalue hr) fun r => rfl
  · next hne => exact absurd hrest (hne _)

/-- An entry under a bare key is read with its line. -/
theorem statement?_entry {e : String × Entry} (hkey : Bare e.1) (hrange : e.2.InRange)
    (rest : List Char) :
    Yields (statement? (writeEntry e ++ rest)) (.assign ⟨[], e.1⟩ e.2.value) rest := by
  obtain ⟨r, hr, hvalue, hrest⟩ := entry?_write hkey hrange rest
  obtain ⟨r', hr', hvalue', hrest'⟩ := endingLine?_newline hrest
  obtain ⟨c, cs, htext, hc⟩ := writeEntry_front hkey rest
  -- a line that starts with a bare key is no header
  have hbracket : ∀ more, writeEntry e ++ rest ≠ '[' :: more := fun more heq => by
    rw [htext] at heq
    exact ne_of_apply hc (by decide) (List.cons.inj heq).1
  rw [statement?.eq_3 _ (fun more => hbracket _) hbracket, hr]
  simp only [hr']
  exact ⟨_, rfl, by simp [hvalue', hvalue], hrest'⟩

/-- The statements of a text start with the one on its first line. -/
theorem statements?_cons {cs rest : List Char} {s : Statement} {c : Char} (hc : Inked c)
    (h : Yields (statement? (c :: cs)) s rest) :
    statements? (c :: cs) = (statements? rest).map (s :: ·) := by
  obtain ⟨r, hr, rfl, rfl⟩ := h
  rw [statements?]
  split
  · next heq => rw [skipTrivia_of_inked hc] at heq; cases heq
  · rw [skipTrivia_of_inked hc, hr]

theorem statements?_nil : statements? [] = some [] := by
  have hskip : skipTrivia [] = [] := by
    rw [skipTrivia]
    rfl
  rw [statements?]
  split
  · rfl
  · next hne => exact absurd hskip hne

theorem statements?_newline (cs : List Char) : statements? ('\n' :: cs) = statements? cs := by
  rw [statements?, statements?, skipTrivia_newline]

/-! ## Documents -/

/-- The path in the header of a table. -/
def Section.header (s : Section) : KeyPath :=
  ⟨s.path.dropLast, s.path.getLastD ""⟩

/-- The statements that a written table is made of. -/
def Section.statements (s : Section) : List Statement :=
  .table s.header :: s.entries.map fun e => .assign ⟨[], e.1⟩ e.2.value

/-- A table that can be written: it has a name, its keys are bare and each stands for one
    entry, and its numbers are in range. -/
structure Section.Plain (s : Section) : Prop where
  named : s.path ≠ []
  names_bare : ∀ name ∈ s.path, Bare name
  short : s.path.length < maxPathSize
  keys_bare : ∀ key ∈ s.entries.map Prod.fst, Bare key
  keys_nodup : (s.entries.map Prod.fst).Nodup
  in_range : ∀ e ∈ s.entries, e.2.InRange

theorem Section.all_header {s : Section} (h : s.path ≠ []) : s.header.all = s.path := by
  show s.path.dropLast ++ [s.path.getLastD ""] = s.path
  rw [List.getLastD_eq_getLast?, List.getLast?_eq_some_getLast h]
  exact List.dropLast_concat_getLast h

theorem statements?_entries {entries : List (String × Entry)}
    (hkeys : ∀ key ∈ entries.map Prod.fst, Bare key)
    (hrange : ∀ e ∈ entries, e.2.InRange) (rest : List Char) :
    statements? (entries.flatMap writeEntry ++ rest) =
      (statements? rest).map ((entries.map fun e => .assign ⟨[], e.1⟩ e.2.value) ++ ·) := by
  induction entries with
  | nil => simp
  | cons e entries ih =>
    rw [List.map_cons, List.forall_mem_cons] at hkeys
    rw [List.forall_mem_cons] at hrange
    have hread := statement?_entry hkeys.1 hrange.1 (entries.flatMap writeEntry ++ rest)
    obtain ⟨c, cs, htext, hc⟩ := writeEntry_front hkeys.1 (entries.flatMap writeEntry ++ rest)
    rw [List.flatMap_cons, List.append_assoc]
    rw [htext] at hread ⊢
    rw [statements?_cons (inked_of_isBareChar hc) hread, ih hkeys.2 hrange.2, Option.map_map]
    rfl

theorem statements?_section {s : Section} (h : s.Plain) (rest : List Char) :
    statements? (s.write ++ rest) = (statements? rest).map (s.statements ++ ·) := by
  have hall := Section.all_header h.named
  have hsize : s.header.size < maxPathSize := by
    have hlength := congrArg List.length hall
    simp only [KeyPath.all, List.length_append, List.length_singleton] at hlength
    rw [KeyPath.size, hlength]
    exact h.short
  have htext : s.write ++ rest =
      '[' :: (s.header.text ++ ']' :: '\n' :: (s.entries.flatMap writeEntry ++ rest)) := by
    simp [Section.write, KeyPath.text, hall]
  have hread := statement?_header (by rw [hall]; exact h.names_bare) hsize
    (s.entries.flatMap writeEntry ++ rest)
  rw [htext, statements?_cons (by decide) hread, statements?_entries h.keys_bare h.in_range,
    Option.map_map]
  rfl

/-- Behind a table come the other ones, after a blank line if there are any. -/
theorem write_cons (s : Section) (sections : List Section) :
    ∃ tail, write (s :: sections) = s.write ++ tail ∧
      statements? tail = statements? (write sections) := by
  cases sections with
  | nil => exact ⟨[], by simp [write], rfl⟩
  | cons t sections =>
    exact ⟨'\n' :: write (t :: sections), by simp [write], statements?_newline _⟩

/-- A written document is read as the statements of its tables. -/
theorem statements?_write {sections : List Section} (h : ∀ s ∈ sections, s.Plain) :
    statements? (write sections) = some (sections.flatMap Section.statements) := by
  induction sections with
  | nil => exact statements?_nil
  | cons s sections ih =>
    rw [List.forall_mem_cons] at h
    obtain ⟨tail, htail, hsame⟩ := write_cons s sections
    rw [htail, statements?_section h.1, hsame, ih h.2]
    rfl

/-- A written document is read as the table that its statements build. -/
theorem read?_write {sections : List Section} (h : ∀ s ∈ sections, s.Plain) :
    read? (write sections) = build? (sections.flatMap Section.statements) := by
  have hmark : dropMark (write sections) = write sections := by
    cases sections with
    | nil => rfl
    | cons s sections =>
      obtain ⟨tail, htail, -⟩ := write_cons s sections
      rw [htail]
      rfl
  rw [read?, hmark, statements?_write h, Option.bind_some]

end CompilerFuzz.Toml
