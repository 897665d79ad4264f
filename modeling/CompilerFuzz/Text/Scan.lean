/-
  CompilerFuzz.Text.Scan

  Looking for a pattern in a text. `after?` matches a fixed word at the front,
  `leftmost?` tries a pattern at every position and takes the first that matches.
-/

namespace CompilerFuzz.Text

/-- The rest of `cs` after the word `w`, if `cs` starts with it. -/
def after? : (w cs : List Char) → Option (List Char)
  | [], cs => some cs
  | _ :: _, [] => none
  | x :: w, c :: cs => if c = x then after? w cs else none

/-- What `pattern` yields at the leftmost position where it matches. -/
def leftmost? {α : Type} (pattern : List Char → Option α) : List Char → Option α
  | [] => pattern []
  | c :: cs =>
    match pattern (c :: cs) with
    | some a => some a
    | none => leftmost? pattern cs

/-! ## Small laws -/

theorem after?_eq_some_iff {w cs rest : List Char} :
    after? w cs = some rest ↔ cs = w ++ rest := by
  induction w generalizing cs with
  | nil => simp [after?]
  | cons x w ih =>
    cases cs with
    | nil => simp [after?]
    | cons c cs =>
      by_cases h : c = x
      · simp [after?, h, ih]
      · simp [after?, h]

/-- A match at the front is the leftmost one. -/
theorem leftmost?_of_eq_some {α : Type} {pattern : List Char → Option α} {cs : List Char} {a : α}
    (h : pattern cs = some a) : leftmost? pattern cs = some a := by
  cases cs with
  | nil => exact h
  | cons c cs =>
    unfold leftmost?
    rw [h]

/-- The match is at the least position that has one. -/
theorem leftmost?_eq_some_iff_drop {α : Type} {pattern : List Char → Option α} {cs : List Char}
    {a : α} :
    leftmost? pattern cs = some a ↔
      ∃ i, pattern (cs.drop i) = some a ∧ ∀ j < i, pattern (cs.drop j) = none := by
  -- the positions of a longer text are its front and the positions of the rest, moved by one
  induction cs with
  | nil =>
    constructor
    · intro h
      exact ⟨0, h, fun j hj => absurd hj (Nat.not_lt_zero j)⟩
    · rintro ⟨i, h, -⟩
      rwa [List.drop_nil] at h
  | cons c cs ih =>
    unfold leftmost?
    constructor
    · intro h
      split at h
      · next b hb =>
        cases h
        exact ⟨0, hb, fun j hj => absurd hj (Nat.not_lt_zero j)⟩
      · next hb =>
        obtain ⟨i, hi, hmin⟩ := ih.1 h
        refine ⟨i + 1, hi, fun j hj => ?_⟩
        cases j with
        | zero => exact hb
        | succ j => exact hmin j (Nat.lt_of_succ_lt_succ hj)
    · rintro ⟨i, hi, hmin⟩
      cases i with
      | zero =>
        have hc : pattern (c :: cs) = some a := hi
        rw [hc]
      | succ i =>
        have hc : pattern (c :: cs) = none := hmin 0 (Nat.succ_pos i)
        rw [hc]
        exact ih.2 ⟨i, hi, fun j hj => hmin (j + 1) (Nat.succ_lt_succ hj)⟩

theorem leftmost?_eq_none_iff_drop {α : Type} {pattern : List Char → Option α} {cs : List Char} :
    leftmost? pattern cs = none ↔ ∀ i, pattern (cs.drop i) = none := by
  induction cs with
  | nil =>
    constructor
    · intro h i
      rw [List.drop_nil]
      exact h
    · intro h
      exact h 0
  | cons c cs ih =>
    unfold leftmost?
    constructor
    · intro h i
      split at h
      · cases h
      · next hb =>
        cases i with
        | zero => exact hb
        | succ i => exact ih.1 h i
    · intro h
      have hc : pattern (c :: cs) = none := h 0
      rw [hc]
      exact ih.2 fun i => h (i + 1)

/-- What is made of a match is made of the leftmost one. -/
theorem leftmost?_map {α β : Type} (f : α → β) (pattern : List Char → Option α) (cs : List Char) :
    leftmost? (fun cs => (pattern cs).map f) cs = (leftmost? pattern cs).map f := by
  induction cs with
  | nil => rfl
  | cons c cs ih =>
    unfold leftmost?
    rw [ih]
    cases pattern (c :: cs) <;> rfl

/-- What occurs has a last occurrence. -/
theorem exists_last_occurrence {α : Type} {a : α} {as : List α} (h : a ∈ as) :
    ∃ earlier later, as = earlier ++ a :: later ∧ a ∉ later := by
  obtain ⟨xs, ys, hsplit, hnot⟩ := List.eq_append_cons_of_mem (List.mem_reverse.2 h)
  refine ⟨ys.reverse, xs.reverse, ?_, fun hmem => hnot (List.mem_reverse.1 hmem)⟩
  rw [← List.reverse_reverse as, hsplit]
  simp

/-- A run of characters that pass a test ends where the first one fails it. -/
theorem takeWhile_append_stop {p : Char → Bool} {run tail : List Char}
    (h : ∀ c ∈ run, p c = true) (hstop : ∀ c ∈ tail.head?, p c = false) :
    (run ++ tail).takeWhile p = run := by
  rw [List.takeWhile_append_of_pos h]
  cases tail with
  | nil => simp
  | cons c tail => simp [hstop c rfl]

theorem dropWhile_append_stop {p : Char → Bool} {run tail : List Char}
    (h : ∀ c ∈ run, p c = true) (hstop : ∀ c ∈ tail.head?, p c = false) :
    (run ++ tail).dropWhile p = tail := by
  rw [List.dropWhile_append_of_pos h]
  cases tail with
  | nil => rfl
  | cons c tail => exact List.dropWhile_cons_of_neg (by simp [hstop c rfl])

/-- Behind a run that is not empty the text is shorter. -/
theorem length_dropWhile_append_lt {p : Char → Bool} {run tail : List Char} (hne : run ≠ [])
    (h : ∀ c ∈ run, p c = true) (hstop : ∀ c ∈ tail.head?, p c = false) :
    ((run ++ tail).dropWhile p).length < (run ++ tail).length := by
  have hpos : 0 < run.length := List.length_pos_iff.2 hne
  rw [dropWhile_append_stop h hstop, List.length_append]
  omega

/-- What a run leaves starts with a character that fails the test. -/
theorem eq_false_of_mem_head?_dropWhile {p : Char → Bool} {cs : List Char} :
    ∀ c ∈ (cs.dropWhile p).head?, p c = false := by
  intro c hc
  have hhead := List.head?_dropWhile_not p cs
  rw [Option.mem_def.1 hc] at hhead
  simpa using hhead

end CompilerFuzz.Text
