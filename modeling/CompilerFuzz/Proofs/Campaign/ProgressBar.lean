/-
  CompilerFuzz.Proofs.Campaign.ProgressBar

  The filled cells of the progress bar against the exact share of the budget. `share` is the part
  of the bar that the elapsed time makes up, as a fraction; `cells` is its whole part. The bar is
  drawn from a number that differs from the share by six roundings (`close_product`), and its
  whole part is taken. So the two counts can differ only if a whole number lies between the share
  and the rounded product, and then the share is that number up to one part in `2 ^ 49`
  (`exists_of_filled_ne`): the bar is right for every other share, and never wrong by more than
  one cell (`wholePart_le`). Such shares are common: at 29 of 50 seconds the quotient is rounded
  down, and a cell is missing.
-/
import CompilerFuzz.Campaign.Progress
import CompilerFuzz.Proofs.Span.Seconds

namespace CompilerFuzz.Campaign.Progress

open CompilerFuzz.Text CompilerFuzz.Binary64

/-- The number of cells that the elapsed time makes up, by whole nanoseconds. -/
def cells (elapsed budget : Span) : ℕ :=
  min barWidth (barWidth * elapsed.totalNanos / budget.totalNanos)

/-- How many filled cells a line has. -/
def filledIn (line : String) : ℕ := line.toList.count '█'

/-- The two numbers differ by at most one part in `2 ^ 49`. -/
def Near (m n : ℕ) : Prop :=
  m * powerOfTwo 49 ≤ n * (powerOfTwo 49 + 1) ∧ n * powerOfTwo 49 ≤ m * (powerOfTwo 49 + 1)

instance (m n : ℕ) : Decidable (Near m n) :=
  inferInstanceAs (Decidable (_ ∧ _))

/-- The budget is spent, or the elapsed time is not near to a whole number of cells. -/
def Clear (elapsed budget : Span) : Prop :=
  budget.totalNanos ≤ elapsed.totalNanos ∨
    ∀ k ≤ barWidth, 0 < k → ¬ Near (barWidth * elapsed.totalNanos) (k * budget.totalNanos)

instance (elapsed budget : Span) : Decidable (Clear elapsed budget) :=
  inferInstanceAs (Decidable (_ ∨ _))

/-- The exact part of the bar that is filled. -/
def share (elapsed budget : Span) : ℚ :=
  barWidth * min (elapsed.exactSeconds / budget.exactSeconds) 1

/-- The part of the bar that is filled, as it is rounded. -/
def product (elapsed budget : Span) : Binary64 :=
  (ofNat barWidth).mul (ratio elapsed budget)

/-! ## The cells in the line -/

theorem filledIn_append (s t : String) : filledIn (s ++ t) = filledIn s + filledIn t := by
  unfold filledIn
  rw [String.toList_append, List.count_append]

theorem block_notMem_numeral (n : ℕ) : '█' ∉ numeral n := by
  intro h
  have hdigit : '█'.isDigit = true := List.all_eq_true.1 (all_isDigit_numeral n) _ h
  cases hdigit

theorem filledIn_numeralText (n : ℕ) : filledIn (numeralText n) = 0 := by
  unfold filledIn numeralText
  rw [String.toList_ofList]
  exact List.count_eq_zero.2 (block_notMem_numeral n)

theorem filledIn_fixedText (places : ℕ) (a : Binary64) : filledIn (a.fixedText places) = 0 := by
  refine List.count_eq_zero.2 ?_
  unfold fixedText numeralText
  simp [block_notMem_numeral, List.mem_replicate]

theorem filledIn_bar (elapsed budget : Span) :
    filledIn (String.ofList (bar elapsed budget)) = filled elapsed budget := by
  unfold filledIn bar
  rw [String.toList_ofList, List.count_append, List.count_replicate_self, List.count_replicate]
  rfl

/-- Only the bar of the line has filled cells. -/
theorem filledIn_line (elapsed budget : Span) (executed : ℕ) :
    filledIn (line elapsed budget executed) = filled elapsed budget := by
  have hwords : filledIn " Progress: |" = 0 ∧ filledIn "| " = 0 ∧ filledIn "% (L: " = 0 ∧
      filledIn "s; E: " = 0 ∧ filledIn "; T: " = 0 ∧ filledIn "/s)" = 0 := by simp [filledIn]
  unfold line
  simp only [filledIn_append, filledIn_numeralText, filledIn_fixedText, filledIn_bar, hwords,
    Nat.zero_add, Nat.add_zero]

/-! ## Whole parts -/

variable {elapsed budget : Span}

theorem totalNanos_pos (h : budget.isZero = false) : 0 < budget.totalNanos := by
  refine Nat.pos_of_ne_zero fun hzero => ?_
  have hspan : budget = Span.zero := Span.totalNanos_inj hzero
  rw [hspan] at h
  cases h

theorem le_floor_iff {a : Binary64} (ha : 0 < a.den) (k : ℕ) : k ≤ a.floor ↔ (k : ℚ) ≤ a.value := by
  have hpos : (0 : ℚ) < a.den := by exact_mod_cast ha
  unfold floor value
  rw [Nat.le_div_iff_mul_le ha, le_div_iff₀ hpos]
  exact_mod_cast Iff.rfl

theorem exactSeconds_div : elapsed.exactSeconds / budget.exactSeconds =
    (elapsed.totalNanos : ℚ) / budget.totalNanos := by
  have hsecond : (0 : ℚ) < nanosPerSecond := by exact_mod_cast Span.nanosPerSecond_pos
  exact div_div_div_cancel_right₀ hsecond.ne' _ _

theorem share_eq (elapsed budget : Span) : share elapsed budget =
    min (((barWidth * elapsed.totalNanos : ℕ) : ℚ) / budget.totalNanos) barWidth := by
  unfold share
  rw [exactSeconds_div, mul_min_of_nonneg _ _ (Nat.cast_nonneg _), mul_one, ← mul_div_assoc]
  push_cast
  rfl

theorem share_nonneg (elapsed budget : Span) : 0 ≤ share elapsed budget := by
  have hdiv := div_nonneg elapsed.exactSeconds_nonneg budget.exactSeconds_nonneg
  exact mul_nonneg (Nat.cast_nonneg _) (le_min hdiv zero_le_one)

theorem le_cells_iff (elapsed : Span) (h : 0 < budget.totalNanos) (k : ℕ) :
    k ≤ cells elapsed budget ↔ (k : ℚ) ≤ share elapsed budget := by
  have hpos : (0 : ℚ) < budget.totalNanos := by exact_mod_cast h
  unfold cells
  rw [share_eq, le_min_iff, le_min_iff, and_comm, Nat.le_div_iff_mul_le h, le_div_iff₀ hpos]
  exact_mod_cast Iff.rfl

/-! ## The rounded product -/

theorem value_atMostOne {a : Binary64} (ha : 0 < a.den) : a.atMostOne.value = min a.value 1 := by
  have hpos : (0 : ℚ) < a.den := by exact_mod_cast ha
  unfold atMostOne
  split
  · next h =>
    have hle : 1 ≤ a.value := by
      unfold value
      rw [le_div_iff₀ hpos, one_mul]
      exact_mod_cast h.le
    rw [min_eq_right hle]
    norm_num [value]
  · next h =>
    have hle : a.value ≤ 1 := by
      unfold value
      rw [div_le_one hpos]
      exact_mod_cast not_lt.1 h
    rw [min_eq_left hle]

theorem atMostOne_den_pos {a : Binary64} (ha : 0 < a.den) : 0 < a.atMostOne.den := by
  unfold atMostOne
  split
  · exact Nat.one_pos
  · exact ha

theorem value_barWidth : (ofNat barWidth).value = barWidth :=
  value_ofNat (by norm_num [barWidth])

theorem exactSeconds_pos (h : 0 < budget.totalNanos) : 0 < budget.exactSeconds := by
  have hpos : (0 : ℚ) < budget.totalNanos := by exact_mod_cast h
  have hsecond : (0 : ℚ) < nanosPerSecond := by exact_mod_cast Span.nanosPerSecond_pos
  exact div_pos hpos hsecond

theorem seconds_pos (h : 0 < budget.totalNanos) : 0 < budget.seconds.value := by
  have hle := budget.close_seconds.symm.le (by norm_num) (value_nonneg _)
  have hpos := exactSeconds_pos h
  linarith

section

variable (elapsed) (hbudget : 0 < budget.totalNanos)
include hbudget

theorem rounds_quotient : Rounds (elapsed.seconds.div budget.seconds)
    (elapsed.seconds.value / budget.seconds.value) :=
  rounds_div elapsed.rounds_seconds.den_pos budget.rounds_seconds.den_pos (seconds_pos hbudget)

theorem ratio_eq : ratio elapsed budget = (elapsed.seconds.div budget.seconds).atMostOne := by
  unfold ratio
  refine if_neg fun h => ?_
  have hzero : budget.secs = 0 ∧ budget.nanos = 0 := by simpa [Span.isZero] using h
  rw [Span.totalNanos, hzero.1, hzero.2] at hbudget
  exact absurd hbudget (by norm_num)

theorem value_ratio : (ratio elapsed budget).value =
    min (elapsed.seconds.div budget.seconds).value 1 := by
  rw [ratio_eq elapsed hbudget, value_atMostOne (rounds_quotient elapsed hbudget).den_pos]

theorem close_quotient : Close 5 (elapsed.seconds.div budget.seconds).value
    (elapsed.exactSeconds / budget.exactSeconds) := by
  have hrounds := rounds_quotient elapsed hbudget
  have hdiv := elapsed.close_seconds.div budget.close_seconds (value_nonneg _)
    elapsed.exactSeconds_nonneg (seconds_pos hbudget) (exactSeconds_pos hbudget)
  have hexact : Sizable 94 (elapsed.exactSeconds / budget.exactSeconds) := by
    rw [exactSeconds_div]
    exact sizable_div _ hbudget budget.totalNanos_le
  have hsizable := hdiv.sizable (by norm_num) hrounds.nonneg hexact
  have hclose := (hrounds.close (hsizable.mono (by norm_num))).trans hdiv
  exact hclose

end

theorem ratio_den_pos (elapsed budget : Span) : 0 < (ratio elapsed budget).den := by
  cases h : budget.isZero with
  | true =>
    unfold ratio
    rw [if_pos h]
    exact Nat.one_pos
  | false =>
    have hbudget := totalNanos_pos h
    rw [ratio_eq elapsed hbudget]
    exact atMostOne_den_pos (rounds_quotient elapsed hbudget).den_pos

theorem rounds_product (elapsed budget : Span) :
    Rounds (product elapsed budget) (barWidth * (ratio elapsed budget).value) := by
  have h := rounds_mul (rounds_ofNat barWidth).den_pos (ratio_den_pos elapsed budget)
  rwa [value_barWidth] at h

theorem le_filled_iff (elapsed budget : Span) (k : ℕ) : k ≤ filled elapsed budget ↔
    (k : ℚ) ≤ min (product elapsed budget).value barWidth := by
  have hrounds := rounds_product elapsed budget
  show k ≤ min (product elapsed budget).floor barWidth ↔ _
  rw [le_min_iff, le_min_iff, le_floor_iff hrounds.den_pos, Nat.cast_le]

section

variable (elapsed) (hbudget : 0 < budget.totalNanos)
include hbudget

/-- Two roundings for each of the two spans, one for the quotient and one for the product. -/
theorem close_product : Close 6 (product elapsed budget).value (share elapsed budget) := by
  have hrounds := rounds_product elapsed budget
  rw [value_ratio elapsed hbudget] at hrounds
  have hexact : Sizable 94 (share elapsed budget) := by
    refine Sizable.const_mul (Sizable.min_one ?_) (by norm_num [barWidth])
    rw [exactSeconds_div]
    exact sizable_div _ hbudget budget.totalNanos_le
  have hmin := (close_quotient elapsed hbudget).min_one.const_mul
    (Nat.cast_nonneg barWidth)
  have hsizable := hmin.sizable (by norm_num) hrounds.nonneg hexact
  have hclose := (hrounds.close (hsizable.mono (by norm_num))).trans hmin
  exact hclose

/-- The rounded product and the share differ by at most one part in `2 ^ 49`. -/
theorem min_product_bounds :
    min (product elapsed budget).value barWidth ≤ (1 + 1 / 2 ^ 49) * share elapsed budget ∧
      share elapsed budget ≤ (1 + 1 / 2 ^ 49) * min (product elapsed budget).value barWidth := by
  have hclose := close_product elapsed hbudget
  have hnonneg := share_nonneg elapsed budget
  have hle : share elapsed budget ≤ barWidth := by
    rw [share_eq]
    exact min_le_right _ _
  constructor
  · exact (min_le_left _ _).trans (hclose.le le_rfl hnonneg)
  · rw [mul_min_of_nonneg _ _ (by norm_num)]
    refine le_min (hclose.symm.le le_rfl (value_nonneg _)) (hle.trans ?_)
    norm_num [barWidth]

end

/-! ## Where the two counts can differ -/

/-- Whole parts of two numbers, the first hardly greater than the second. -/
theorem wholePart_le {m n : ℕ} {x y : ℚ} (hm : ∀ k : ℕ, k ≤ m ↔ (k : ℚ) ≤ x)
    (hn : ∀ k : ℕ, k ≤ n ↔ (k : ℚ) ≤ y) (hxy : x ≤ (1 + 1 / 2 ^ 49) * y) (hbound : m ≤ barWidth) :
    m ≤ n + 1 := by
  by_contra hgt
  have hx : ((n + 2 : ℕ) : ℚ) ≤ x := (hm _).1 (by omega)
  have hy : y < (n + 1 : ℕ) := not_le.1 fun hle => absurd ((hn _).2 hle) (by omega)
  have hsmall : (n : ℚ) + 1 ≤ 50 := by
    have hnat : n + 1 ≤ 50 := by
      unfold barWidth at hbound
      omega
    exact_mod_cast hnat
  push_cast at hx hy
  linarith

/-- A number between the two whole parts is passed by the first number only. -/
theorem passed_of_lt {m n : ℕ} {x y : ℚ} (hm : ∀ k : ℕ, k ≤ m ↔ (k : ℚ) ≤ x)
    (hn : ∀ k : ℕ, k ≤ n ↔ (k : ℚ) ≤ y) (h : n < m) : y < (n + 1 : ℕ) ∧ ((n + 1 : ℕ) : ℚ) ≤ x :=
  ⟨not_le.1 fun hle => absurd ((hn _).2 hle) (by omega), (hm _).1 h⟩

theorem mul_powerOfTwo_le_iff {m n : ℕ} :
    m * powerOfTwo 49 ≤ n * (powerOfTwo 49 + 1) ↔ (m : ℚ) ≤ (1 + 1 / 2 ^ 49) * n := by
  have hpower : (powerOfTwo 49 : ℚ) = 2 ^ 49 := by exact_mod_cast cast_powerOfTwo 49
  have hcast : m * powerOfTwo 49 ≤ n * (powerOfTwo 49 + 1) ↔
      (m : ℚ) * powerOfTwo 49 ≤ n * (powerOfTwo 49 + 1) := by exact_mod_cast Iff.rfl
  rw [hcast, hpower]
  constructor
  · intro h
    linarith
  · intro h
    linarith

theorem near_iff {m n : ℕ} :
    Near m n ↔ (m : ℚ) ≤ (1 + 1 / 2 ^ 49) * n ∧ (n : ℚ) ≤ (1 + 1 / 2 ^ 49) * m :=
  and_congr mul_powerOfTwo_le_iff mul_powerOfTwo_le_iff

theorem filled_le (elapsed budget : Span) : filled elapsed budget ≤ barWidth :=
  min_le_right _ _

theorem cells_le (elapsed budget : Span) : cells elapsed budget ≤ barWidth :=
  min_le_left _ _

/-- The quotient of a spent budget is at least one after rounding, too. -/
theorem value_ratio_of_spent (hspent : budget.totalNanos ≤ elapsed.totalNanos) :
    (ratio elapsed budget).value = 1 := by
  cases h : budget.isZero with
  | true =>
    unfold ratio
    rw [if_pos h]
    norm_num [value]
  | false =>
    have hbudget := totalNanos_pos h
    have hexact : ((1 : ℕ) : ℚ) ≤ elapsed.seconds.value / budget.seconds.value := by
      rw [Nat.cast_one, one_le_div (seconds_pos hbudget)]
      exact Span.seconds_mono hspent
    have hle := (rounds_ofNat 1).mono (rounds_quotient elapsed hbudget) hexact
    rw [value_ofNat (by norm_num), Nat.cast_one] at hle
    rw [value_ratio elapsed hbudget, min_eq_right hle]

theorem filled_of_spent (hspent : budget.totalNanos ≤ elapsed.totalNanos) :
    filled elapsed budget = barWidth := by
  have hrounds := rounds_product elapsed budget
  rw [value_ratio_of_spent hspent, mul_one] at hrounds
  refine Nat.le_antisymm (filled_le elapsed budget) ((le_filled_iff elapsed budget _).2 ?_)
  rw [hrounds.eq_of_lt (by norm_num [barWidth]), min_self]

section

variable (hbudget : 0 < budget.totalNanos)
include hbudget

/-- If the two counts differ, the share is next to a whole number of cells. -/
theorem exists_of_filled_ne (h : filled elapsed budget ≠ cells elapsed budget) :
    ∃ k ≤ barWidth, 0 < k ∧ share elapsed budget ≤ (1 + 1 / 2 ^ 49) * k ∧
      (k : ℚ) ≤ (1 + 1 / 2 ^ 49) * share elapsed budget := by
  obtain ⟨hle, hge⟩ := min_product_bounds elapsed hbudget
  have hnonneg := share_nonneg elapsed budget
  have hfilled := le_filled_iff elapsed budget
  have hcells := le_cells_iff elapsed hbudget
  rcases Nat.lt_or_gt_of_ne h with hless | hmore
  · -- the next number of cells is passed by the share, and missed by the product
    obtain ⟨hbelow, habove⟩ := passed_of_lt hcells hfilled hless
    refine ⟨_, hless.trans_le (cells_le elapsed budget), Nat.succ_pos _, ?_, ?_⟩
    · linarith
    · linarith
  · -- the other way round
    obtain ⟨hbelow, habove⟩ := passed_of_lt hfilled hcells hmore
    refine ⟨_, hmore.trans_le (filled_le elapsed budget), Nat.succ_pos _, ?_, ?_⟩
    · linarith
    · exact habove.trans hle

/-- While the budget is not spent, what is near as a fraction is near in nanoseconds. -/
theorem near_of_share {k : ℕ} (hspent : elapsed.totalNanos < budget.totalNanos)
    (hle : share elapsed budget ≤ (1 + 1 / 2 ^ 49) * k)
    (hge : (k : ℚ) ≤ (1 + 1 / 2 ^ 49) * share elapsed budget) :
    Near (barWidth * elapsed.totalNanos) (k * budget.totalNanos) := by
  have hpos : (0 : ℚ) < budget.totalNanos := by exact_mod_cast hbudget
  have hnanos : share elapsed budget * budget.totalNanos = (barWidth * elapsed.totalNanos : ℕ) := by
    have hfew : ((barWidth * elapsed.totalNanos : ℕ) : ℚ) / budget.totalNanos ≤ barWidth := by
      rw [div_le_iff₀ hpos]
      exact_mod_cast Nat.mul_le_mul_left barWidth hspent.le
    rw [share_eq, min_eq_left hfew, div_mul_cancel₀ _ hpos.ne']
  rw [near_iff, ← hnanos, Nat.cast_mul k]
  constructor
  · rw [← mul_assoc]
    exact mul_le_mul_of_nonneg_right hle hpos.le
  · rw [← mul_assoc]
    exact mul_le_mul_of_nonneg_right hge hpos.le

theorem cells_of_spent (hspent : budget.totalNanos ≤ elapsed.totalNanos) :
    cells elapsed budget = barWidth := by
  unfold cells
  refine Nat.min_eq_left ?_
  rw [Nat.le_div_iff_mul_le hbudget]
  exact Nat.mul_le_mul_left barWidth hspent

theorem filled_eq_cells (h : Clear elapsed budget) :
    filled elapsed budget = cells elapsed budget := by
  rcases Nat.lt_or_ge elapsed.totalNanos budget.totalNanos with hless | hspent
  · have hfar := h.resolve_left (Nat.not_le.2 hless)
    by_contra hne
    obtain ⟨k, hk, hkpos, hle, hge⟩ := exists_of_filled_ne hbudget hne
    exact hfar k hk hkpos (near_of_share hbudget hless hle hge)
  · rw [filled_of_spent hspent, cells_of_spent hbudget hspent]

end

/-- The bar has the documented number of cells, except for an elapsed time whose share of the
    budget is next to a whole number of cells; there one cell may be missing or too much. -/
theorem filledIn_line_bounds (elapsed budget : Span) (executed : ℕ) (h : budget.isZero = false) :
    (Clear elapsed budget → filledIn (line elapsed budget executed) = cells elapsed budget) ∧
      filledIn (line elapsed budget executed) ≤ cells elapsed budget + 1 ∧
      cells elapsed budget ≤ filledIn (line elapsed budget executed) + 1 := by
  have hbudget := totalNanos_pos h
  have hfilled := le_filled_iff elapsed budget
  have hcells := le_cells_iff elapsed hbudget
  obtain ⟨hle, hge⟩ := min_product_bounds elapsed hbudget
  rw [filledIn_line]
  exact ⟨filled_eq_cells hbudget, wholePart_le hfilled hcells hle (filled_le elapsed budget),
    wholePart_le hcells hfilled hge (cells_le elapsed budget)⟩

/-- Ten of sixty seconds are a little more than eight cells. -/
theorem filledIn_line_bounds_of_ten :
    (Span.ofSecs 60).isZero = false ∧ Clear (Span.ofSecs 10) (Span.ofSecs 60) ∧
      filledIn (line (Span.ofSecs 10) (Span.ofSecs 60) 3) =
        cells (Span.ofSecs 10) (Span.ofSecs 60) :=
  ⟨by decide, by decide +kernel,
    (filledIn_line_bounds (Span.ofSecs 10) (Span.ofSecs 60) 3 (by decide)).1 (by decide +kernel)⟩

/-- At 29 of 50 seconds the bar has 28 cells. -/
theorem not_forall_filledIn_line_eq :
    ¬ ∀ (elapsed budget : Span) (executed : ℕ), budget.isZero = false →
      filledIn (line elapsed budget executed) = cells elapsed budget := by
  intro h
  have heq := h (Span.ofSecs 29) (Span.ofSecs 50) 0 (by decide)
  rw [filledIn_line] at heq
  have hfilled : filled (Span.ofSecs 29) (Span.ofSecs 50) = 28 := by decide +kernel
  have hcells : cells (Span.ofSecs 29) (Span.ofSecs 50) = 29 := by decide +kernel
  rw [hfilled, hcells] at heq
  cases heq

end CompilerFuzz.Campaign.Progress
