/-
  CompilerFuzz.Proofs.Toml.Strings

  A written string is read back as it was, whatever form it takes and whatever follows it. One
  character is an escape or stands for itself (`escapeChar_cases`); from it the bodies
  follow by induction. In the multi-line forms quotes of the string can meet the closing
  ones: at most two do, and `closing` gives them back.
-/
import Mathlib.Tactic.SplitIfs
import CompilerFuzz.Text.Scan
import CompilerFuzz.Toml.Written

namespace CompilerFuzz.Toml

open CompilerFuzz.Text CompilerFuzz.Text.Front

/-! ## Characters -/

theorem isPlain_of_not_isControl {c : Char} (h : isControl c = false) (hline : c ≠ '\n') :
    isPlain c = true := by
  simp only [isControl, Bool.or_eq_false_iff, Bool.and_eq_false_iff, decide_eq_false_iff_not,
    bne_eq_false_iff_eq, beq_eq_false_iff_ne] at h
  obtain ⟨(hlow | htab) | hnewline, hdel⟩ := h
  · simp [isPlain, Char.not_lt.1 hlow, hdel]
  · simp [isPlain, htab]
  · exact absurd hnewline hline

theorem newline?_eq_none {c : Char} (hline : c ≠ '\n') (hreturn : c ≠ '\r') (rest : List Char) :
    newline? (c :: rest) = none := by
  unfold newline?
  split
  · next heq => exact absurd (List.cons.inj heq).1 hline
  · next heq => exact absurd (List.cons.inj heq).1 hreturn
  · rfl

theorem toNat_lt_of_isControl {c : Char} (h : isControl c = true) : c.toNat < 128 := by
  simp only [isControl, Bool.or_eq_true, Bool.and_eq_true, decide_eq_true_eq, beq_iff_eq] at h
  rcases h with ⟨⟨hlow, -⟩, -⟩ | rfl
  · exact Nat.lt_trans hlow (by decide)
  · decide

theorem hexDigit?_upperHexDigit {n : Nat} (h : n < 16) : hexDigit? (upperHexDigit n) = some n := by
  have hall : ∀ m < 16, hexDigit? (upperHexDigit m) = some m := by decide
  exact hall n h

/-- `body` stands for `c` behind a backslash, whatever follows it. -/
def Escapes (body : List Char) (c : Char) : Prop :=
  ∀ rest, continuation? (body ++ rest) = none ∧ Yields (escape? (body ++ rest)) c rest

/-- `c` stands for itself in a basic string. -/
def Verbatim (c : Char) : Prop :=
  isPlain c = true ∧ c ≠ '"' ∧ c ≠ '\\' ∧ c ≠ '\n' ∧ c ≠ '\r'

theorem escapes_letter {letter c : Char} (h : shortEscape? letter = some c) :
    Escapes [letter] c := by
  intro rest
  unfold shortEscape? at h
  split at h <;> cases h
  all_goals exact ⟨rfl, _, rfl, rfl, rfl⟩

theorem escapes_code {c : Char} (h : isControl c = true) :
    Escapes ['u', '0', '0', upperHexDigit (c.toNat / 16), upperHexDigit (c.toNat % 16)] c := by
  intro rest
  have hlt := toNat_lt_of_isControl h
  have hhigh := hexDigit?_upperHexDigit (n := c.toNat / 16) (by omega)
  have hlow := hexDigit?_upperHexDigit (n := c.toNat % 16) (by omega)
  have hzero : hexDigit? '0' = some 0 := by decide
  have hsum : c.toNat / 16 * 16 + c.toNat % 16 = c.toNat := Nat.div_add_mod' ..
  have hcode : codePoint? 4
      ('0' :: '0' :: upperHexDigit (c.toNat / 16) :: upperHexDigit (c.toNat % 16) :: rest) = some c := by
    simp only [codePoint?, List.take_succ_cons, List.take_zero, List.length_cons, List.length_nil,
      if_true, hexNumber?, List.foldlM_cons, List.foldlM_nil, hhigh, hlow, hzero, Option.map_some,
      Option.bind_eq_bind, Option.bind_some, Option.pure_def, Nat.zero_mul, Nat.zero_add, hsum]
    have hvalid : c.toNat.isValidChar := c.valid
    rw [charOfCode?, if_pos hvalid, Char.ofNat_toNat]
  refine ⟨rfl, ?_⟩
  simp only [List.cons_append, List.nil_append, escape?, hcode]
  exact ⟨_, rfl, rfl, rfl⟩

/-- A character is written as an escape, or stands for itself. -/
theorem escapeChar_cases (c : Char) :
    (∃ body, escapeChar c = '\\' :: body ∧ Escapes body c) ∨ escapeChar c = [c] ∧ Verbatim c := by
  -- seven characters have letters of their own, other control characters are given by number
  unfold escapeChar
  by_cases hb : c = '\x08'
  · rw [if_pos hb]
    exact .inl ⟨_, rfl, escapes_letter (congrArg some hb.symm)⟩
  rw [if_neg hb]
  by_cases ht : c = '\t'
  · rw [if_pos ht]
    exact .inl ⟨_, rfl, escapes_letter (congrArg some ht.symm)⟩
  rw [if_neg ht]
  by_cases hn : c = '\n'
  · rw [if_pos hn]
    exact .inl ⟨_, rfl, escapes_letter (congrArg some hn.symm)⟩
  rw [if_neg hn]
  by_cases hf : c = '\x0c'
  · rw [if_pos hf]
    exact .inl ⟨_, rfl, escapes_letter (congrArg some hf.symm)⟩
  rw [if_neg hf]
  by_cases hr : c = '\r'
  · rw [if_pos hr]
    exact .inl ⟨_, rfl, escapes_letter (congrArg some hr.symm)⟩
  rw [if_neg hr]
  by_cases hq : c = '"'
  · rw [if_pos hq]
    exact .inl ⟨_, rfl, escapes_letter (congrArg some hq.symm)⟩
  rw [if_neg hq]
  by_cases hs : c = '\\'
  · rw [if_pos hs]
    exact .inl ⟨_, rfl, escapes_letter (congrArg some hs.symm)⟩
  rw [if_neg hs]
  by_cases hcontrol : isControl c = true
  · rw [if_pos hcontrol]
    exact .inl ⟨_, rfl, escapes_code hcontrol⟩
  rw [if_neg hcontrol]
  have hplain : isPlain c = true := isPlain_of_not_isControl (Bool.eq_false_iff.2 hcontrol) hn
  exact .inr ⟨rfl, hplain, hq, hs, hn, hr⟩

/-! ## One line -/

/-- An escape yields its character, and the body goes on behind it. -/
theorem basicBody?_escape {body rest s tail : List Char} {c : Char} (hbody : Escapes body c)
    (h : Yields (basicBody? rest) s tail) :
    Yields (basicBody? ('\\' :: (body ++ rest))) (c :: s) tail := by
  obtain ⟨-, e, he, hc, hrest⟩ := hbody rest
  rw [← hrest] at h
  rw [basicBody?]
  simp only [he]
  exact h.map (fun r hr => by rw [← hc, ← hr]; rfl) fun r => rfl

theorem basicBody?_verbatim {rest s tail : List Char} {c : Char} (hc : Verbatim c)
    (h : Yields (basicBody? rest) s tail) : Yields (basicBody? (c :: rest)) (c :: s) tail := by
  obtain ⟨hplain, hquote, hslash, -, -⟩ := hc
  rw [basicBody?.eq_4 _ _ hquote hslash, if_pos hplain]
  exact h.map (fun r hr => congrArg (c :: ·) hr) fun r => rfl

/-- A basic string is read up to its closing quote. -/
theorem basicBody?_flatMap (s rest : List Char) :
    Yields (basicBody? (s.flatMap escapeChar ++ '"' :: rest)) s rest := by
  induction s with
  | nil =>
    rw [List.flatMap_nil, List.nil_append, basicBody?]
    exact ⟨_, rfl, rfl, rfl⟩
  | cons c s ih =>
    rw [List.flatMap_cons, List.append_assoc]
    obtain ⟨body, hescape, hbody⟩ | ⟨hself, hc⟩ := escapeChar_cases c
    · rw [hescape]
      exact basicBody?_escape hbody ih
    · rw [hself]
      exact basicBody?_verbatim hc ih

/-- A literal string is read up to its closing quote. -/
theorem literalBody?_append {s : List Char} (h : ∀ c ∈ s, isPlain c = true ∧ c ≠ '\'')
    (rest : List Char) : Yields (literalBody? (s ++ '\'' :: rest)) s rest := by
  induction s with
  | nil => exact ⟨_, rfl, rfl, rfl⟩
  | cons c s ih =>
    rw [List.forall_mem_cons] at h
    rw [List.cons_append, literalBody?.eq_3 _ _ h.1.2, if_pos h.1.1]
    exact (ih h.2).map (fun r hr => congrArg (c :: ·) hr) fun r => rfl

/-! ## Several lines -/

/-- At most two quotes in front of the closing ones belong to the string. -/
theorem closing_replicate {quote : Char} {n : Nat} (hn : n ≤ 2) {rest : List Char}
    (hrest : rest.head? ≠ some quote) :
    closing quote (List.replicate n quote ++ rest) = (List.replicate n quote, rest) := by
  have hnone : closing quote rest = ([], rest) := by
    cases rest with
    | nil => rfl
    | cons a rest =>
      have ha : a ≠ quote := fun e => hrest (congrArg some e)
      cases rest <;> simp [closing, ha]
  obtain rfl | rfl | rfl : n = 0 ∨ n = 1 ∨ n = 2 := by omega
  · exact hnone
  · cases rest with
    | nil => simp [closing]
    | cons a rest =>
      have ha : a ≠ quote := fun e => hrest (congrArg some e)
      simp [closing, ha]
  · simp [closing, List.replicate]

/-- Quotes of the string and the closing ones cannot be told apart. -/
theorem replicate_append_closing {n : Nat} (hn : n ≤ 2) (quote : Char) (rest : List Char) :
    List.replicate n quote ++ quote :: quote :: quote :: rest =
      quote :: quote :: quote :: (List.replicate n quote ++ rest) := by
  obtain rfl | rfl | rfl : n = 0 ∨ n = 1 ∨ n = 2 := by omega
  all_goals rfl

/-- Three quotes do not follow each other in front of another character. -/
theorem replicate_append_ne {n : Nat} (hn : n ≤ 2) {quote d : Char} (hd : d ≠ quote)
    (rest more : List Char) :
    List.replicate n quote ++ d :: rest ≠ quote :: quote :: quote :: more := by
  obtain rfl | rfl | rfl : n = 0 ∨ n = 1 ∨ n = 2 := by omega
  all_goals simp [List.replicate, hd]

theorem append_ne_of_replicate {n : Nat} (hn : n ≤ 2) {quote d : Char} (hd : d ≠ quote)
    {s after : List Char} (hs : s = List.replicate n quote ++ d :: after) (rest more : List Char) :
    s ++ rest ≠ quote :: quote :: quote :: more := by
  rw [hs, List.append_assoc, List.cons_append]
  exact replicate_append_ne hn hd (after ++ rest) more

/-! ## Several lines with escapes -/

theorem multiBasicBody?_escape {body rest s tail : List Char} {c : Char} (hbody : Escapes body c)
    (h : Yields (multiBasicBody? rest) s tail) :
    Yields (multiBasicBody? ('\\' :: (body ++ rest))) (c :: s) tail := by
  obtain ⟨hnone, e, he, hc, hrest⟩ := hbody rest
  rw [← hrest] at h
  rw [multiBasicBody?]
  split
  · next heq => rw [hnone] at heq; cases heq
  · simp only [he]
    exact h.map (fun r hr => by rw [← hc, ← hr]; rfl) fun r => rfl

theorem multiBasicBody?_newline {rest s tail : List Char} (h : Yields (multiBasicBody? rest) s tail) :
    Yields (multiBasicBody? ('\n' :: rest)) ('\n' :: s) tail := by
  rw [multiBasicBody?.eq_4 _ _ (by simp) (by simp)]
  split
  · next heq =>
    cases heq
    exact h.map (fun r hr => congrArg ('\n' :: ·) hr) fun r => rfl
  · next heq => cases heq

/-- A character stands for itself if it is no escape, no newline, and no closing quote. -/
theorem multiBasicBody?_plain {rest s tail : List Char} {c : Char} (hplain : isPlain c = true)
    (hslash : c ≠ '\\') (hline : c ≠ '\n') (hreturn : c ≠ '\r')
    (hquote : c = '"' → ∀ more, rest ≠ '"' :: '"' :: more)
    (h : Yields (multiBasicBody? rest) s tail) :
    Yields (multiBasicBody? (c :: rest)) (c :: s) tail := by
  rw [multiBasicBody?.eq_4 _ _ (fun more hc => hquote hc more) hslash]
  split
  · next heq => rw [newline?_eq_none hline hreturn] at heq; cases heq
  · rw [if_pos hplain]
    exact h.map (fun r hr => congrArg (c :: ·) hr) fun r => rfl

/-- The string may end in quotes of its own. -/
theorem multiBasicBody?_closing {n : Nat} (hn : n ≤ 2) {rest : List Char}
    (hrest : rest.head? ≠ some '"') :
    Yields (multiBasicBody? (List.replicate n '"' ++ '"' :: '"' :: '"' :: rest))
      (List.replicate n '"') rest := by
  rw [replicate_append_closing hn, multiBasicBody?]
  exact ⟨_, rfl, congrArg Prod.fst (closing_replicate hn hrest),
    congrArg Prod.snd (closing_replicate hn hrest)⟩

theorem escapeLines_third (s : List Char) :
    escapeLines 2 ('"' :: s) = '\\' :: (['"'] ++ escapeLines 0 s) := by
  simp [escapeLines]

theorem escapeLines_quote {run : Nat} (h : run ≠ 2) (s : List Char) :
    escapeLines run ('"' :: s) = '"' :: escapeLines (run + 1) s := by
  simp [escapeLines, h]

theorem escapeLines_newline (run : Nat) (s : List Char) :
    escapeLines run ('\n' :: s) = '\n' :: escapeLines 0 s := by
  simp [escapeLines]

theorem escapeLines_other {c : Char} (hquote : c ≠ '"') (hline : c ≠ '\n') (run : Nat)
    (s : List Char) : escapeLines run (c :: s) = escapeChar c ++ escapeLines 0 s := by
  simp [escapeLines, hquote, hline]

/-- Behind a run of quotes come too few to make three, and then the end or another
    character. -/
theorem escapeLines_quotes (s : List Char) {run : Nat} (hrun : run ≤ 2) :
    ∃ n, n + run ≤ 2 ∧ (s = List.replicate n '"' ∧ escapeLines run s = s ∨
      ∃ d rest, escapeLines run s = List.replicate n '"' ++ d :: rest ∧ d ≠ '"') := by
  induction s generalizing run with
  | nil => exact ⟨0, by omega, .inl ⟨rfl, rfl⟩⟩
  | cons c s ih =>
    by_cases hquote : c = '"'
    · subst hquote
      -- the third quote of a run is escaped, and a backslash is no quote
      by_cases hfull : run = 2
      · subst hfull
        exact ⟨0, by omega, .inr ⟨_, _, escapeLines_third s, by decide⟩⟩
      · rw [escapeLines_quote hfull]
        obtain ⟨n, hn, ⟨hs, hsame⟩ | ⟨d, rest, hrest, hd⟩⟩ := ih (show run + 1 ≤ 2 by omega)
        · exact ⟨n + 1, by omega, .inl ⟨congrArg ('"' :: ·) hs, congrArg ('"' :: ·) hsame⟩⟩
        · exact ⟨n + 1, by omega, .inr ⟨d, rest, congrArg ('"' :: ·) hrest, hd⟩⟩
    · refine ⟨0, by omega, .inr ?_⟩
      by_cases hline : c = '\n'
      · subst hline
        exact ⟨_, _, escapeLines_newline run s, by decide⟩
      · rw [escapeLines_other hquote hline]
        obtain ⟨body, hescape, -⟩ | ⟨hself, -⟩ := escapeChar_cases c
        · exact ⟨_, _, by rw [hescape]; rfl, by decide⟩
        · exact ⟨_, _, by rw [hself]; rfl, hquote⟩

/-- A multi-line basic string is read up to its closing quotes. The reader does not count the
    quotes it has passed, as the writer does: it looks ahead for three of them. -/
theorem multiBasicBody?_escapeLines (s : List Char) {run : Nat} (hrun : run ≤ 2) {rest : List Char}
    (hrest : rest.head? ≠ some '"') :
    Yields (multiBasicBody? (escapeLines run s ++ '"' :: '"' :: '"' :: rest)) s rest := by
  induction s generalizing run with
  | nil => exact multiBasicBody?_closing (Nat.zero_le 2) hrest
  | cons c s ih =>
    by_cases hquote : c = '"'
    · subst hquote
      by_cases hfull : run = 2
      · subst hfull
        rw [escapeLines_third, List.cons_append, List.append_assoc]
        exact multiBasicBody?_escape (escapes_letter rfl) (ih (Nat.zero_le 2))
      · obtain ⟨n, hn, ⟨hs, hsame⟩ | ⟨d, more, hmore, hd⟩⟩ := escapeLines_quotes ('"' :: s) hrun
        -- Only quotes are left of the string: they are read together with the closing ones.
        · rw [hsame, hs]
          exact multiBasicBody?_closing (Nat.le_of_add_right_le hn) hrest
        -- Another character comes before a third quote, so this one closes nothing.
        · rw [escapeLines_quote hfull] at hmore ⊢
          refine multiBasicBody?_plain (by decide) (by decide) (by decide) (by decide)
            (fun _ more' heq => ?_) (ih (by omega))
          have hless : n ≤ 2 := Nat.le_of_add_right_le hn
          exact append_ne_of_replicate hless hd hmore _ more' (congrArg ('"' :: ·) heq)
    · by_cases hline : c = '\n'
      · subst hline
        rw [escapeLines_newline]
        exact multiBasicBody?_newline (ih (Nat.zero_le 2))
      · rw [escapeLines_other hquote hline, List.append_assoc]
        obtain ⟨body, hescape, hbody⟩ | ⟨hself, hplain, -, hslash, -, hreturn⟩ := escapeChar_cases c
        · rw [hescape]
          exact multiBasicBody?_escape hbody (ih (Nat.zero_le 2))
        · rw [hself]
          exact multiBasicBody?_plain hplain hslash hline hreturn (fun h => absurd h hquote)
            (ih (Nat.zero_le 2))

/-! ## Several lines without escapes -/

theorem multiLiteralBody?_newline {rest s tail : List Char}
    (h : Yields (multiLiteralBody? rest) s tail) :
    Yields (multiLiteralBody? ('\n' :: rest)) ('\n' :: s) tail := by
  rw [multiLiteralBody?.eq_3 _ _ (by simp)]
  split
  · next heq =>
    cases heq
    exact h.map (fun r hr => congrArg ('\n' :: ·) hr) fun r => rfl
  · next heq => cases heq

theorem multiLiteralBody?_plain {rest s tail : List Char} {c : Char} (hplain : isPlain c = true)
    (hline : c ≠ '\n') (hreturn : c ≠ '\r')
    (hquote : ∀ more, c :: rest ≠ '\'' :: '\'' :: '\'' :: more)
    (h : Yields (multiLiteralBody? rest) s tail) :
    Yields (multiLiteralBody? (c :: rest)) (c :: s) tail := by
  rw [multiLiteralBody?.eq_3 _ _ (fun more hc hrest => hquote more (by rw [hc, hrest]))]
  split
  · next heq => rw [newline?_eq_none hline hreturn] at heq; cases heq
  · rw [if_pos hplain]
    exact h.map (fun r hr => congrArg (c :: ·) hr) fun r => rfl

theorem multiLiteralBody?_closing {n : Nat} (hn : n ≤ 2) {rest : List Char}
    (hrest : rest.head? ≠ some '\'') :
    Yields (multiLiteralBody? (List.replicate n '\'' ++ '\'' :: '\'' :: '\'' :: rest))
      (List.replicate n '\'') rest := by
  rw [replicate_append_closing hn, multiLiteralBody?]
  exact ⟨_, rfl, congrArg Prod.fst (closing_replicate hn hrest),
    congrArg Prod.snd (closing_replicate hn hrest)⟩

/-- A text without three quotes in a row starts with at most two. -/
theorem quotes_of_hasTriple {quote : Char} {s : List Char} (h : hasTriple quote s = false) :
    ∃ n, n ≤ 2 ∧ (s = List.replicate n quote ∨
      ∃ d rest, s = List.replicate n quote ++ d :: rest ∧ d ≠ quote) := by
  rcases s with _ | ⟨a, s⟩
  · exact ⟨0, by omega, .inl rfl⟩
  by_cases ha : a = quote
  · subst ha
    rcases s with _ | ⟨b, s⟩
    · exact ⟨1, by omega, .inl rfl⟩
    by_cases hb : b = a
    · subst hb
      rcases s with _ | ⟨c, s⟩
      · exact ⟨2, by omega, .inl rfl⟩
      have hc : c ≠ b := by
        rintro rfl
        simp [hasTriple] at h
      exact ⟨2, by omega, .inr ⟨c, s, rfl, hc⟩⟩
    · exact ⟨1, by omega, .inr ⟨b, s, rfl, hb⟩⟩
  · exact ⟨0, by omega, .inr ⟨a, s, rfl, ha⟩⟩

theorem hasTriple_tail {quote c : Char} {s : List Char} (h : hasTriple quote (c :: s) = false) :
    hasTriple quote s = false := by
  rcases s with _ | ⟨a, _ | ⟨b, s⟩⟩
  · rfl
  · rfl
  · rw [hasTriple, Bool.or_eq_false_iff] at h
    exact h.2

/-- A multi-line literal string is read up to its closing quotes. -/
theorem multiLiteralBody?_append {s : List Char} (hcontrol : ∀ c ∈ s, isControl c = false)
    (htriple : hasTriple '\'' s = false) {rest : List Char} (hrest : rest.head? ≠ some '\'') :
    Yields (multiLiteralBody? (s ++ '\'' :: '\'' :: '\'' :: rest)) s rest := by
  induction s with
  | nil => exact multiLiteralBody?_closing (Nat.zero_le 2) hrest
  | cons c s ih =>
    rw [List.forall_mem_cons] at hcontrol
    have hread := ih hcontrol.2 (hasTriple_tail htriple)
    by_cases hline : c = '\n'
    · subst hline
      exact multiLiteralBody?_newline hread
    have hplain := isPlain_of_not_isControl hcontrol.1 hline
    have hreturn : c ≠ '\r' := by
      rintro rfl
      exact absurd hcontrol.1 (by decide)
    obtain ⟨n, hn, hs | ⟨d, more, hmore, hd⟩⟩ := quotes_of_hasTriple htriple
    · -- what is left are quotes, read together with the closing ones
      rw [hs]
      exact multiLiteralBody?_closing hn hrest
    · -- another character comes before a third quote
      exact multiLiteralBody?_plain hplain hline hreturn
        (append_ne_of_replicate hn hd hmore _) hread

/-! ## Any form -/

/-- The form can hold the text. -/
def Quotation.Holds (form : Quotation) (s : List Char) : Prop :=
  match form with
  | .basic | .multiBasic => True
  | .literal => ∀ c ∈ s, isPlain c = true ∧ c ≠ '\''
  | .multiLiteral => (∀ c ∈ s, isControl c = false) ∧ hasTriple '\'' s = false

/-- The form in which a text is written can hold it. -/
theorem Quotation.choose_holds (s : List Char) : (choose s).Holds s := by
  unfold choose
  split_ifs with hcontrol hline hbasic hliteral hmulti htriple hline'
  all_goals try exact trivial
  · refine fun c hc => ⟨isPlain_of_not_isControl ?_ fun e => hliteral.2 (e ▸ hc),
      fun e => hliteral.1 (e ▸ hc)⟩
    simpa using fun h => hcontrol (List.any_eq_true.2 ⟨c, hc, h⟩)
  · exact ⟨fun c hc => by simpa using fun h => hcontrol (List.any_eq_true.2 ⟨c, hc, h⟩), htriple⟩

theorem dropNewline_openingNewline {s text : List Char}
    (h : ∀ c ∈ text.head?, '\n' ∉ s → c ≠ '\n' ∧ c ≠ '\r') :
    dropNewline (openingNewline s ++ text) = text := by
  unfold openingNewline
  split
  · rfl
  · next hline =>
    cases text with
    | nil => rfl
    | cons c text =>
      obtain ⟨hnewline, hreturn⟩ := h c rfl hline
      simp [dropNewline, newline?_eq_none hnewline hreturn]

/-- Text without a newline does not start with one when it is written, nor with a part of one. -/
theorem ne_of_mem_head?_escapeLines {s rest : List Char} (hline : '\n' ∉ s) {c : Char}
    (hc : c ∈ (escapeLines 0 s ++ '"' :: rest).head?) : c ≠ '\n' ∧ c ≠ '\r' := by
  cases s with
  | nil =>
    obtain rfl : '"' = c := Option.some.inj hc
    decide
  | cons d s =>
    rw [List.mem_cons, not_or] at hline
    by_cases hquote : d = '"'
    · subst hquote
      rw [escapeLines_quote (by decide)] at hc
      obtain rfl : '"' = c := Option.some.inj hc
      decide
    · -- an escape begins with a backslash, and neither character is written without one
      rw [escapeLines_other hquote (Ne.symm hline.1)] at hc
      obtain ⟨body, hescape, -⟩ | ⟨hself, -, -, -, hverbatim⟩ := escapeChar_cases d
      · rw [hescape] at hc
        obtain rfl : '\\' = c := Option.some.inj hc
        decide
      · rw [hself] at hc
        obtain rfl : d = c := Option.some.inj hc
        exact hverbatim

theorem quoted?_multiBasic (s : List Char) {rest : List Char} (hrest : rest.head? ≠ some '"') :
    Yields (quoted? (Quotation.multiBasic.write s ++ rest)) s rest := by
  have hread := multiBasicBody?_escapeLines s (Nat.zero_le 2) hrest
  rw [← dropNewline_openingNewline fun c hc hline => ne_of_mem_head?_escapeLines hline hc] at hread
  have htext : Quotation.multiBasic.write s ++ rest = '"' :: '"' :: '"' ::
      (openingNewline s ++ (escapeLines 0 s ++ '"' :: '"' :: '"' :: rest)) := by
    simp [Quotation.write]
  rw [htext, quoted?]
  exact hread.map (fun r hr => hr) fun r => rfl

theorem quoted?_multiLiteral {s : List Char} (hcontrol : ∀ c ∈ s, isControl c = false)
    (htriple : hasTriple '\'' s = false) {rest : List Char} (hrest : rest.head? ≠ some '\'') :
    Yields (quoted? (Quotation.multiLiteral.write s ++ rest)) s rest := by
  have hfront : ∀ c ∈ (s ++ '\'' :: '\'' :: '\'' :: rest).head?,
      '\n' ∉ s → c ≠ '\n' ∧ c ≠ '\r' := by
    intro c hc hline
    cases s with
    | nil =>
      obtain rfl : '\'' = c := Option.some.inj hc
      decide
    | cons d s =>
      obtain rfl : d = c := Option.some.inj hc
      refine ⟨fun e => hline (e ▸ List.mem_cons_self), ?_⟩
      rintro rfl
      exact absurd (hcontrol '\r' List.mem_cons_self) (by decide)
  -- a newline after the opening quotes is dropped, so one is written if the text begins with one
  have hread := multiLiteralBody?_append hcontrol htriple hrest
  rw [← dropNewline_openingNewline hfront] at hread
  have htext : Quotation.multiLiteral.write s ++ rest = '\'' :: '\'' :: '\'' ::
      (openingNewline s ++ (s ++ '\'' :: '\'' :: '\'' :: rest)) := by
    simp [Quotation.write]
  rw [htext, quoted?]
  exact hread.map (fun r hr => hr) fun r => rfl

theorem quoted?_basic (s : List Char) {rest : List Char} (hrest : rest.head? ≠ some '"') :
    Yields (quoted? (Quotation.basic.write s ++ rest)) s rest := by
  have hone : ∀ more, s.flatMap escapeChar ++ '"' :: rest ≠ '"' :: '"' :: more := by
    intro more heq
    cases s with
    | nil => exact hrest (by rw [(List.cons.inj heq).2]; rfl)
    | cons c s =>
      rw [List.flatMap_cons, List.append_assoc] at heq
      obtain ⟨body, hescape, -⟩ | ⟨hself, -, hquote, -⟩ := escapeChar_cases c
      · rw [hescape] at heq
        exact absurd (List.cons.inj heq).1 (by decide)
      · rw [hself] at heq
        exact hquote (List.cons.inj heq).1
  have htext : Quotation.basic.write s ++ rest = '"' :: (s.flatMap escapeChar ++ '"' :: rest) := by
    simp [Quotation.write]
  rw [htext, quoted?.eq_3 _ (fun more heq => hone more (List.cons.inj heq).2) (by simp)]
  exact (basicBody?_flatMap s rest).map (fun r hr => hr) fun r => rfl

theorem quoted?_literal {s : List Char} (h : ∀ c ∈ s, isPlain c = true ∧ c ≠ '\'')
    {rest : List Char} (hrest : rest.head? ≠ some '\'') :
    Yields (quoted? (Quotation.literal.write s ++ rest)) s rest := by
  have hone : ∀ more, s ++ '\'' :: rest ≠ '\'' :: '\'' :: more := by
    intro more heq
    cases s with
    | nil => exact hrest (by rw [(List.cons.inj heq).2]; rfl)
    | cons c s => exact (h c List.mem_cons_self).2 (List.cons.inj heq).1
  have htext : Quotation.literal.write s ++ rest = '\'' :: (s ++ '\'' :: rest) := by
    simp [Quotation.write]
  rw [htext, quoted?.eq_3 _ (by simp) (fun more heq => hone more (List.cons.inj heq).2)]
  exact (literalBody?_append h rest).map (fun r hr => hr) fun r => rfl

/-- No quote stands at the front of a text, so that none can join a string before it. -/
def Unquoted (rest : List Char) : Prop :=
  rest.head? ≠ some '"' ∧ rest.head? ≠ some '\''

/-- A written string is read back, whatever follows it but one more quote. -/
theorem quoted?_writeString (s : String) {rest : List Char} (h : Unquoted rest) :
    Yields (quoted? (writeString s ++ rest)) s.toList rest := by
  obtain ⟨hbasic, hliteral⟩ := h
  have hholds := Quotation.choose_holds s.toList
  unfold writeString
  cases hform : Quotation.choose s.toList with
  | basic => exact quoted?_basic _ hbasic
  | literal => exact quoted?_literal (by rwa [hform] at hholds) hliteral
  | multiBasic => exact quoted?_multiBasic _ hbasic
  | multiLiteral =>
    rw [hform] at hholds
    exact quoted?_multiLiteral hholds.1 hholds.2 hliteral

end CompilerFuzz.Toml
