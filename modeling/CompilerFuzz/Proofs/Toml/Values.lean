/-
  CompilerFuzz.Proofs.Toml.Values

  The written values of entries are read back: strings, natural numbers, and lists of
  strings, whether they stand on one line or take a line for each item. A numeral ends at the
  newline behind it, a string wherever its quotes close.
-/
import CompilerFuzz.Proofs.Toml.Strings
import CompilerFuzz.Toml.Document

namespace CompilerFuzz.Toml

open CompilerFuzz.Text CompilerFuzz.Text.Front

/-! ## Between values -/

/-- `c` starts a part of a document: it is no blank, no newline, and no comment. -/
def Inked (c : Char) : Prop :=
  isSpace c = false ∧ c ≠ '#' ∧ c ≠ '\n' ∧ c ≠ '\r'

instance (c : Char) : Decidable (Inked c) :=
  inferInstanceAs (Decidable (_ ∧ _))

/-- Characters that a test tells apart are not the same. -/
theorem ne_of_apply {p : Char → Bool} {c d : Char} (hc : p c = true) (hd : p d = false) : c ≠ d := by
  rintro rfl
  rw [hc] at hd
  cases hd

/-- A test that nothing between values passes finds the characters of values. -/
theorem Inked.of_apply {p : Char → Bool} {c : Char} (h : p c = true)
    (hp : [' ', '\t', '#', '\n', '\r'].any p = false) : Inked c := by
  simp only [List.any_cons, Bool.or_eq_false_iff] at hp
  obtain ⟨hblank, htab, hcomment, hline, hreturn, -⟩ := hp
  refine ⟨?_, ne_of_apply h hcomment, ne_of_apply h hline, ne_of_apply h hreturn⟩
  simp [isSpace, ne_of_apply h hblank, ne_of_apply h htab]

theorem skipSpace_of_inked {c : Char} (h : Inked c) (cs : List Char) :
    skipSpace (c :: cs) = c :: cs :=
  List.dropWhile_cons_of_neg (Bool.eq_false_iff.1 h.1)

theorem skipTrivia_of_inked {c : Char} (h : Inked c) (cs : List Char) :
    skipTrivia (c :: cs) = c :: cs := by
  obtain ⟨-, hcomment, hline, hreturn⟩ := id h
  have hnone : newline? (skipComment (skipSpace (c :: cs))) = none := by
    rw [skipSpace_of_inked h, skipComment.eq_2 _ (by simp [hcomment])]
    exact newline?_eq_none hline hreturn cs
  rw [skipTrivia]
  split
  · next heq => rw [hnone] at heq; cases heq
  · exact skipSpace_of_inked h cs

theorem skipTrivia_newline (cs : List Char) : skipTrivia ('\n' :: cs) = skipTrivia cs := by
  rw [skipTrivia]
  rfl

theorem skipTrivia_blank (cs : List Char) : skipTrivia (' ' :: cs) = skipTrivia cs := by
  rw [skipTrivia, skipTrivia]
  rfl

/-! ## Strings -/

/-- A written string starts with a quote. -/
theorem writeString_front (s : String) :
    ∃ quote rest, writeString s = quote :: rest ∧ (quote = '"' ∨ quote = '\'') := by
  unfold writeString
  cases Quotation.choose s.toList with
  | basic => exact ⟨_, _, rfl, .inl rfl⟩
  | literal => exact ⟨_, _, rfl, .inr rfl⟩
  | multiBasic => exact ⟨_, _, rfl, .inl rfl⟩
  | multiLiteral => exact ⟨_, _, rfl, .inr rfl⟩

theorem inked_of_quote {c : Char} (h : c = '"' ∨ c = '\'') : Inked c := by
  rcases h with rfl | rfl <;> decide

theorem scalar?_writeString (s : String) {rest : List Char} (h : Unquoted rest) :
    Yields (scalar? (writeString s ++ rest)) (.string s) rest := by
  obtain ⟨r, hr, hvalue, hrest⟩ := quoted?_writeString s h
  rw [scalar?, hr]
  exact ⟨_, rfl, by simp [hvalue], hrest⟩

/-- A value is read as one without parts unless a bracket or a brace opens it. -/
theorem valueWithin?_of_scalar? (levels : Nat) {c : Char} (harray : c ≠ '[') (htable : c ≠ '{')
    (cs : List Char) : valueWithin? levels (c :: cs) = scalar? (c :: cs) := by
  cases levels with
  | zero => rfl
  | succ levels =>
    rw [valueWithin?.eq_4]
    · exact fun rest h => harray (List.cons.inj h).1
    · exact fun rest h => htable (List.cons.inj h).1

theorem valueWithin?_writeString (levels : Nat) (s : String) {rest : List Char} (h : Unquoted rest) :
    Yields (valueWithin? levels (writeString s ++ rest)) (.string s) rest := by
  have hscalar := scalar?_writeString s h
  obtain ⟨quote, text, htext, hquote⟩ := writeString_front s
  rw [htext, List.cons_append] at hscalar ⊢
  rw [valueWithin?_of_scalar?]
  · exact hscalar
  · rcases hquote with rfl | rfl <;> decide
  · rcases hquote with rfl | rfl <;> decide

/-! ## Numbers -/

theorem digits?_of_all {ds : List Char} (hne : ds ≠ []) (h : ds.all Char.isDigit = true) :
    digits? Char.isDigit ds = some ds := by
  induction ds with
  | nil => exact absurd rfl hne
  | cons d ds ih =>
    rw [List.all_cons, Bool.and_eq_true] at h
    cases ds with
    | nil => simp [digits?, h.1]
    | cons e ds =>
      have hdigit : e.isDigit = true := by
        rw [List.all_cons, Bool.and_eq_true] at h
        exact h.2.1
      -- no underscore parts the digits
      have hscore : e ≠ '_' := by
        rintro rfl
        exact absurd hdigit (by decide)
      rw [digits?.eq_4 _ _ _ (by simp) (fun rest heq => hscore (List.cons.inj heq).1), if_pos h.1,
        ih (List.cons_ne_nil e ds) h.2]
      rfl

theorem decimalDigits?_numeral (n : Nat) : decimalDigits? (numeral n) = some (numeral n) := by
  rw [decimalDigits?, digits?_of_all (numeral_ne_nil n) (all_isDigit_numeral n)]
  split
  · next heq => exact heq.symm
  · next hne heq =>
    exact absurd (numeral_front_zero (Option.some.inj heq)).2 hne
  · rfl

theorem integer?_numeral {n : Nat} (hn : n ≤ maxInteger) : integer? (numeral n) = some (n : Int) := by
  -- a numeral has neither the prefix of another base nor a sign
  have hzero : ∀ c rest, numeral n = '0' :: c :: rest → False := fun c rest h =>
    List.cons_ne_nil c rest (numeral_front_zero h).2
  have hsign : splitSign (numeral n) = (false, numeral n) := by
    have hdigits := all_isDigit_numeral n
    unfold splitSign
    split
    · next heq => rw [heq] at hdigits; exact absurd hdigits (by simp)
    · next heq => rw [heq] at hdigits; exact absurd hdigits (by simp)
    · rfl
  rw [integer?.eq_4 _ (hzero 'x') (hzero 'o') (hzero 'b')]
  simp [decimal?, hsign, decimalDigits?_numeral, numeralValue_numeral, hn]

theorem ofWord?_numeral {n : Nat} (hn : n ≤ maxInteger) :
    ofWord? (numeral n) = some (.integer n) := by
  have hdigits := all_isDigit_numeral n
  have htrue : numeral n ≠ ['t', 'r', 'u', 'e'] := fun h => by
    rw [h] at hdigits
    exact absurd hdigits (by decide)
  have hfalse : numeral n ≠ ['f', 'a', 'l', 's', 'e'] := fun h => by
    rw [h] at hdigits
    exact absurd hdigits (by decide)
  rw [ofWord?, if_neg htrue, if_neg hfalse, integer?_numeral hn]

theorem word?_append {word : List Char} (hne : word ≠ []) (h : ∀ c ∈ word, isWordChar c = true)
    (rest : List Char) : Yields (word? (word ++ '\n' :: rest)) word ('\n' :: rest) := by
  have hstop : ∀ c ∈ ('\n' :: rest).head?, isWordChar c = false := fun c hc => by
    obtain rfl : '\n' = c := Option.some.inj hc
    decide
  have hlt := length_dropWhile_append_lt hne h hstop
  exact ⟨⟨_, _, hlt⟩, dif_pos hlt, takeWhile_append_stop h hstop, dropWhile_append_stop h hstop⟩

theorem quoted?_eq_none {c : Char} (hbasic : c ≠ '"') (hliteral : c ≠ '\'') (cs : List Char) :
    quoted? (c :: cs) = none := by
  rw [quoted?.eq_3, lineQuoted?.eq_3]
  · exact fun rest h => hbasic (List.cons.inj h).1
  · exact fun rest h => hliteral (List.cons.inj h).1
  · exact fun rest h => hbasic (List.cons.inj h).1
  · exact fun rest h => hliteral (List.cons.inj h).1

/-- A number is read up to the end of its line. -/
theorem scalar?_numeral {n : Nat} (hn : n ≤ maxInteger) (rest : List Char) :
    Yields (scalar? (numeral n ++ '\n' :: rest)) (.integer n) ('\n' :: rest) := by
  have hword : ∀ c ∈ numeral n, isWordChar c = true := fun c hc => by
    simp [isWordChar, Char.isAlphanum, List.all_eq_true.1 (all_isDigit_numeral n) c hc]
  obtain ⟨r, hr, hvalue, hrest⟩ := word?_append (numeral_ne_nil n) hword rest
  have hnone : quoted? (numeral n ++ '\n' :: rest) = none := by
    obtain ⟨d, ds, hnum, hdigit, -⟩ := numeral_front n
    rw [hnum]
    exact quoted?_eq_none (ne_of_apply hdigit (by decide)) (ne_of_apply hdigit (by decide)) _
  have htime : timeAfter? r.rest = none := by
    rw [hrest]
    rfl
  rw [scalar?, hnone]
  simp only [wordValue?, hr, htime, hvalue, ofWord?_numeral hn]
  exact ⟨_, rfl, rfl, hrest⟩

theorem valueWithin?_numeral (levels : Nat) {n : Nat} (hn : n ≤ maxInteger) (rest : List Char) :
    Yields (valueWithin? levels (numeral n ++ '\n' :: rest)) (.integer n) ('\n' :: rest) := by
  have hscalar := scalar?_numeral hn rest
  obtain ⟨d, ds, hnum, hdigit, -⟩ := numeral_front n
  rw [hnum, List.cons_append] at hscalar ⊢
  rw [valueWithin?_of_scalar? levels (ne_of_apply hdigit (by decide))
    (ne_of_apply hdigit (by decide))]
  exact hscalar

/-! ## Lists -/

theorem skipTrivia_writeString (s : String) (rest : List Char) :
    skipTrivia (writeString s ++ rest) = writeString s ++ rest := by
  obtain ⟨quote, text, htext, hquote⟩ := writeString_front s
  rw [htext]
  exact skipTrivia_of_inked (inked_of_quote hquote) _

theorem skipTrivia_writeItem (s : String) (rest : List Char) :
    skipTrivia (writeItem s ++ rest) = writeString s ++ ',' :: '\n' :: rest := by
  have htext : writeItem s ++ rest =
      ' ' :: ' ' :: ' ' :: ' ' :: (writeString s ++ ',' :: '\n' :: rest) := by
    simp [writeItem]
  simp only [htext, skipTrivia_blank, skipTrivia_writeString]

theorem afterItem?_bracket (rest : List Char) : afterItem? (']' :: rest) = some (false, rest) := by
  simp only [afterItem?, skipTrivia_of_inked (show Inked ']' by decide)]

theorem afterItem?_last (rest : List Char) :
    afterItem? (',' :: '\n' :: ']' :: rest) = some (false, rest) := by
  simp only [afterItem?, skipTrivia_of_inked (show Inked ',' by decide), skipTrivia_newline,
    skipTrivia_of_inked (show Inked ']' by decide)]

theorem afterItem?_more (s : String) (rest : List Char) :
    afterItem? (',' :: '\n' :: (writeItem s ++ rest)) =
      some (true, writeString s ++ ',' :: '\n' :: rest) := by
  obtain ⟨quote, text, htext, hquote⟩ := writeString_front s
  simp only [afterItem?, skipTrivia_of_inked (show Inked ',' by decide), skipTrivia_newline,
    skipTrivia_writeItem, htext, List.cons_append]
  rcases hquote with rfl | rfl <;> rfl

/-- The reader takes every written string, whatever follows. -/
def ReadsStrings (reader : ValueReader) : Prop :=
  ∀ s rest, Unquoted rest → Yields (reader (writeString s ++ rest)) (.string s) rest

variable {reader : ValueReader}

theorem items?_last {cs tail rest : List Char} {v : Value} (hv : Yields (reader cs) v tail)
    (hafter : afterItem? tail = some (false, rest)) : Yields (items? reader cs) [v] rest := by
  obtain ⟨r, hr, rfl, rfl⟩ := hv
  rw [items?]
  simp only [hr]
  split
  · next heq => rw [hafter] at heq; cases heq
  · next heq =>
    rw [hafter] at heq
    cases heq
    exact ⟨_, rfl, rfl, rfl⟩
  · next heq => rw [hafter] at heq; cases heq

theorem items?_more {cs tail next rest : List Char} {v : Value} {vs : List Value}
    (hv : Yields (reader cs) v tail) (hafter : afterItem? tail = some (true, next))
    (hvs : Yields (items? reader next) vs rest) : Yields (items? reader cs) (v :: vs) rest := by
  obtain ⟨r, hr, rfl, rfl⟩ := hv
  rw [items?]
  simp only [hr]
  split
  · next heq => rw [hafter] at heq; cases heq
  · next heq => rw [hafter] at heq; cases heq
  · next heq =>
    rw [hafter] at heq
    cases heq
    exact hvs.map (fun r' hr' => congrArg (r.value :: ·) hr') fun r' => rfl

/-- Items on lines of their own are read up to the bracket behind them. -/
theorem items?_flatMap (h : ReadsStrings reader) (s : String) (items : List String)
    (rest : List Char) :
    Yields (items? reader (writeString s ++ ',' :: '\n' :: (items.flatMap writeItem ++ ']' :: rest)))
      ((s :: items).map .string) rest := by
  induction items generalizing s with
  | nil => exact items?_last (h s _ (by simp [Unquoted])) (afterItem?_last rest)
  | cons t items ih =>
    have hread := h s (',' :: '\n' :: ((t :: items).flatMap writeItem ++ ']' :: rest))
      (by simp [Unquoted])
    rw [List.flatMap_cons, List.append_assoc] at hread ⊢
    exact items?_more hread (afterItem?_more t _) (ih t)

theorem array?_of_items? {cs next rest : List Char} {vs : List Value} (hnext : skipTrivia cs = next)
    (hbracket : next.head? ≠ some ']') (h : Yields (items? reader next) vs rest) :
    Yields (array? reader cs) vs rest := by
  subst hnext
  unfold array?
  split
  · next heq => rw [heq] at hbracket; exact absurd rfl hbracket
  · exact h.map (fun r hr => hr) fun r => rfl

theorem head?_writeString_ne (s : String) (rest : List Char) {c : Char} (hbasic : c ≠ '"')
    (hliteral : c ≠ '\'') : (writeString s ++ rest).head? ≠ some c := by
  obtain ⟨quote, text, htext, rfl | rfl⟩ := writeString_front s
  · simpa [htext] using hbasic.symm
  · simpa [htext] using hliteral.symm

/-- A written list is read behind its opening bracket. -/
theorem array?_write (h : ReadsStrings reader) (items : List String) (rest : List Char) :
    ∃ text, (Entry.strings items).write ++ rest = '[' :: text ∧
      Yields (array? reader text) (items.map .string) rest := by
  -- one item stands on the line of its brackets, several have lines of their own
  rcases items with _ | ⟨s, _ | ⟨t, items⟩⟩
  · refine ⟨']' :: rest, rfl, ?_⟩
    unfold array?
    split
    · next heq =>
      rw [skipTrivia_of_inked (by decide)] at heq
      cases heq
      exact ⟨_, rfl, rfl, rfl⟩
    · next hbracket =>
      exact absurd (skipTrivia_of_inked (by decide) rest) (hbracket rest)
  · refine ⟨writeString s ++ ']' :: rest, by simp [Entry.write], ?_⟩
    exact array?_of_items? (skipTrivia_writeString s _)
      (head?_writeString_ne s _ (by decide) (by decide))
      (items?_last (h s _ (by simp [Unquoted])) (afterItem?_bracket rest))
  · refine ⟨'\n' :: (writeItem s ++ ((t :: items).flatMap writeItem ++ ']' :: rest)),
      by simp [Entry.write], ?_⟩
    exact array?_of_items? (by rw [skipTrivia_newline, skipTrivia_writeItem])
      (head?_writeString_ne s _ (by decide) (by decide)) (items?_flatMap h s (t :: items) rest)

/-! ## Entries -/

/-- The value that an entry is read as. -/
def Entry.value : Entry → Value
  | .string s => .string s
  | .number n => .integer n
  | .strings items => .array (items.map .string)

/-- The numbers of an entry are in the range of integers. -/
def Entry.InRange : Entry → Prop
  | .number n => n ≤ maxInteger
  | .string _ | .strings _ => True

/-- The value of an entry is read up to the end of its line. -/
theorem value?_write {e : Entry} (h : e.InRange) (rest : List Char) :
    Yields (value? (e.write ++ '\n' :: rest)) e.value ('\n' :: rest) := by
  cases e with
  | string s =>
    have hunquoted : Unquoted ('\n' :: rest) := by simp [Unquoted]
    exact valueWithin?_writeString maxLevels s hunquoted
  | number n => exact valueWithin?_numeral maxLevels h rest
  | strings items =>
    obtain ⟨text, htext, hread⟩ := array?_write
      (fun s rest hrest => valueWithin?_writeString 78 s hrest) items ('\n' :: rest)
    rw [htext]
    exact hread.map (fun r hr => congrArg Value.array hr) fun r => rfl

theorem Entry.write_front (e : Entry) : ∃ c rest, e.write = c :: rest ∧ Inked c := by
  cases e with
  | string s =>
    obtain ⟨quote, text, htext, hquote⟩ := writeString_front s
    exact ⟨quote, text, htext, inked_of_quote hquote⟩
  | number n =>
    obtain ⟨d, ds, hnum, hdigit, -⟩ := numeral_front n
    exact ⟨d, ds, hnum, Inked.of_apply hdigit (by decide)⟩
  | strings items =>
    rcases items with _ | ⟨s, _ | ⟨t, items⟩⟩
    · exact ⟨_, _, rfl, by decide⟩
    · exact ⟨_, _, rfl, by decide⟩
    · exact ⟨_, _, rfl, by decide⟩

end CompilerFuzz.Toml
