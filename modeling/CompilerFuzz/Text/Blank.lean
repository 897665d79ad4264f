/-
  CompilerFuzz.Text.Blank

  White space (the property White_Space) and trimming. Trimming takes a whole run
  of blanks off one end or both; a second pass at the same end finds nothing.
-/

namespace CompilerFuzz.Text

/-- Is `c` white space, of any script? -/
def isBlank (c : Char) : Bool :=
  let n := c.toNat
  (0x9 ≤ n && n ≤ 0xD) || n == 0x20 || n == 0x85 || n == 0xA0 || n == 0x1680
    || (0x2000 ≤ n && n ≤ 0x200A) || n == 0x2028 || n == 0x2029 || n == 0x202F
    || n == 0x205F || n == 0x3000

/-- `cs` without its leading blanks. -/
def trimStart (cs : List Char) : List Char :=
  cs.dropWhile isBlank

/-- `cs` without its trailing blanks. -/
def trimEnd (cs : List Char) : List Char :=
  (trimStart cs.reverse).reverse

/-- `cs` without the blanks at either end. -/
def trim (cs : List Char) : List Char :=
  trimEnd (trimStart cs)

/-- The text without its trailing blanks. -/
def trimEndText (s : String) : String :=
  String.ofList (trimEnd s.toList)

/-- The text without the blanks at either end. -/
def trimText (s : String) : String :=
  String.ofList (trim s.toList)

/-! ## Laws of trimming -/

theorem trimStart_trimStart (cs : List Char) : trimStart (trimStart cs) = trimStart cs := by
  unfold trimStart
  induction cs with
  | nil => rfl
  | cons c cs ih => by_cases h : isBlank c <;> simp [h, ih]

theorem trimEnd_trimEnd (cs : List Char) : trimEnd (trimEnd cs) = trimEnd cs := by
  simp [trimEnd, trimStart_trimStart]

/-- The start of a text without leading blanks has none either. -/
theorem trimStart_of_isPrefix {cs ds : List Char} (h : trimStart cs = cs) (hds : ds <+: cs) :
    trimStart ds = ds := by
  cases ds with
  | nil => rfl
  | cons d ds =>
    obtain ⟨rest, rfl⟩ := hds
    have hself : List.dropWhile isBlank (d :: ds ++ rest) = d :: ds ++ rest := h
    have hd := List.head?_dropWhile_not isBlank (d :: ds ++ rest)
    rw [hself] at hd
    exact List.dropWhile_cons_of_neg (Bool.eq_false_iff.1 hd)

theorem trim_prefix_trimStart (cs : List Char) : trim cs <+: trimStart cs := by
  have hsuffix : trimStart (trimStart cs).reverse <:+ (trimStart cs).reverse :=
    List.dropWhile_suffix isBlank
  simpa [trim, trimEnd] using List.reverse_prefix.2 hsuffix

theorem trim_subset (cs : List Char) : trim cs ⊆ cs :=
  List.Subset.trans (trim_prefix_trimStart cs).subset (List.dropWhile_suffix isBlank).subset

theorem trim_trim (cs : List Char) : trim (trim cs) = trim cs := by
  have hstart : trimStart (trim cs) = trim cs :=
    trimStart_of_isPrefix (trimStart_trimStart cs) (trim_prefix_trimStart cs)
  show trimEnd (trimStart (trim cs)) = trim cs
  rw [hstart]
  exact trimEnd_trimEnd _

theorem trimStart_eq_nil_iff {cs : List Char} :
    trimStart cs = [] ↔ ∀ c ∈ cs, isBlank c = true := by
  unfold trimStart
  induction cs with
  | nil => simp
  | cons c cs ih => by_cases h : isBlank c <;> simp [h, ih]

/-- Nothing is left of a text that has only blanks. -/
theorem trim_eq_nil_iff {cs : List Char} : trim cs = [] ↔ ∀ c ∈ cs, isBlank c = true := by
  rw [← trimStart_eq_nil_iff]
  constructor
  · intro h
    rw [trim, trimEnd, List.reverse_eq_nil_iff, trimStart_eq_nil_iff] at h
    -- what the first pass leaves would start with a character that is no blank
    rw [← trimStart_trimStart, trimStart_eq_nil_iff]
    intro c hc
    exact h c (List.mem_reverse.2 hc)
  · intro h
    rw [trim, h]
    rfl

theorem trim_ne_nil_iff {cs : List Char} : trim cs ≠ [] ↔ ∃ c ∈ cs, isBlank c = false := by
  rw [ne_eq, trim_eq_nil_iff]
  simp

section TrimEnd

variable {cs ds : List Char}

theorem trimEnd_append_of_blank (cs : List Char) (h : trimEnd ds = []) :
    trimEnd (cs ++ ds) = trimEnd cs := by
  unfold trimEnd at *
  rw [List.reverse_eq_nil_iff, trimStart_eq_nil_iff] at h
  unfold trimStart
  rw [List.reverse_append, List.dropWhile_append_of_pos h]

theorem trimEnd_append_of_not_blank (cs : List Char) (h : trimEnd ds ≠ []) :
    trimEnd (cs ++ ds) = cs ++ trimEnd ds := by
  unfold trimEnd trimStart at *
  rw [ne_eq, List.reverse_eq_nil_iff] at h
  rw [List.reverse_append, List.dropWhile_append, if_neg (by simpa using h), List.reverse_append,
    List.reverse_reverse]

/-- The end of a text stays its end. -/
theorem trimEnd_suffix (h : ds <:+ cs) : trimEnd ds <:+ trimEnd cs := by
  obtain ⟨front, rfl⟩ := h
  by_cases hblank : trimEnd ds = []
  · rw [hblank]
    exact List.nil_suffix
  · rw [trimEnd_append_of_not_blank front hblank]
    exact List.suffix_append _ _

/-- Characters that are no blanks stop the trimming. -/
theorem trimEnd_replicate_append {c : Char} (h : isBlank c = false) (k : Nat) (cs : List Char) :
    trimEnd (List.replicate k c ++ cs) = List.replicate k c ++ trimEnd cs := by
  by_cases hblank : trimEnd cs = []
  · rw [trimEnd_append_of_blank _ hblank, hblank, List.append_nil]
    unfold trimEnd trimStart
    rw [List.reverse_replicate]
    cases k with
    | zero => rfl
    | succ k => rw [List.replicate_succ, List.dropWhile_cons_of_neg (by simp [h]),
        ← List.replicate_succ, List.reverse_replicate]
  · exact trimEnd_append_of_not_blank _ hblank

end TrimEnd

/-- No digit is white space. -/
theorem isBlank_eq_false_of_isDigit {c : Char} (h : c.isDigit = true) : isBlank c = false := by
  have hc : 48 ≤ c.toNat ∧ c.toNat ≤ 57 := by
    simpa [Char.isDigit, UInt32.le_iff_toNat_le] using h
  simp only [isBlank, Bool.or_eq_false_iff, Bool.and_eq_false_iff, beq_eq_false_iff_ne,
    decide_eq_false_iff_not]
  omega

end CompilerFuzz.Text
