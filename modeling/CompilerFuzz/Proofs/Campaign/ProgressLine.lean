/-
  CompilerFuzz.Proofs.Campaign.ProgressLine

  The progress line as a text that moves forward. `Shows` says what stands in a line: a bar of
  fifty cells, filled ones first, a percentage with two places, the rate. Every line is of that
  form (`line_shows`). What it shows comes from one rounded number, the ratio, by operations
  that keep the order: the ratio lies between zero and one, grows with the elapsed time
  (`ratio_mono`), is one when the budget is spent and zero at the start. The conversion to
  seconds keeps the order too (`Span.seconds_mono`), so no line falls behind an earlier one. All
  numbers on the way are far from the overflow limit, and no divisor is zero
  (`finite_of_mem_numbers`, `isPositive_seconds`).
-/
import CompilerFuzz.Proofs.Campaign.ProgressBar

namespace CompilerFuzz.Campaign.Progress

open CompilerFuzz.Text CompilerFuzz.Binary64

/-- The percentage in hundredths, as it is printed. -/
def hundredths (elapsed budget : Span) : ℕ :=
  roundHalfEven ((percent elapsed budget).num * powerOfTen 2) (percent elapsed budget).den

/-- A number of hundredths, written with two places. -/
def placesText (n : ℕ) : String :=
  numeralText (n / 100) ++ "." ++ numeralText (n / 10 % 10) ++ numeralText (n % 10)

/-- A progress line that shows a number of filled cells, a percentage in hundredths and a
    rate. -/
structure Shows (line : String) (budget : Span) (executed cells hundredths rate : ℕ) : Prop where
  text_eq : ∃ dashes, cells + dashes = barWidth ∧
    line = " Progress: |"
      ++ String.ofList (List.replicate cells '█' ++ List.replicate dashes '-') ++ "| "
      ++ placesText hundredths ++ "% (L: " ++ numeralText budget.secs ++ "s; E: "
      ++ numeralText executed ++ "; T: " ++ numeralText rate ++ "/s)"
  hundredths_le : hundredths ≤ 10000

/-- The numbers that a line is computed from. -/
def numbers (elapsed budget : Span) (executed : ℕ) : List Binary64 :=
  [elapsed, budget].flatMap (fun s => [ofNat s.secs, s.fraction, s.seconds])
    ++ (if budget.isZero then [] else [elapsed.seconds.div budget.seconds])
    ++ [ratio elapsed budget, product elapsed budget, percent elapsed budget, ofNat executed]
    ++ (if elapsed.seconds.isPositive then [(ofNat executed).div elapsed.seconds] else [])

/-! ## Two places -/

theorem numeral_of_lt {n : ℕ} (h : n < 10) : numeral n = [digitChar n] := by
  rw [numeral, if_pos h]

/-- A number below a hundred, filled up to two digits. -/
theorem replicate_append_numeral {n : ℕ} (h : n < 100) :
    List.replicate (2 - (numeral n).length) '0' ++ numeral n =
      numeral (n / 10) ++ numeral (n % 10) := by
  have hlast : digitChar (n % 10) = digitChar n := by
    unfold digitChar
    rw [Nat.mod_mod]
  rw [numeral_of_lt (Nat.mod_lt n (by norm_num)), hlast]
  by_cases hsmall : n < 10
  · rw [numeral_of_lt hsmall, Nat.div_eq_of_lt hsmall, numeral_of_lt (by norm_num)]
    rfl
  · rw [numeral, if_neg hsmall, numeral_of_lt (by omega : n / 10 < 10)]
    rfl

theorem fixedText_eq_placesText (a : Binary64) :
    a.fixedText 2 = placesText (roundHalfEven (a.num * powerOfTen 2) a.den) := by
  have hhundred : powerOfTen 2 = 100 := rfl
  unfold fixedText placesText
  rw [hhundred]
  dsimp only
  generalize roundHalfEven (a.num * 100) a.den = n
  rw [replicate_append_numeral (Nat.mod_lt n (by norm_num)), String.ofList_append]
  have htens : n % 100 / 10 = n / 10 % 10 := by omega
  have hones : n % 100 % 10 = n % 10 := by omega
  rw [htens, hones, ← String.append_assoc]
  rfl

example : placesText 705 = "7.05" := by decide +kernel

/-! ## The ratio -/

variable {elapsed later budget : Span}

theorem value_ratio_le_one (elapsed budget : Span) : (ratio elapsed budget).value ≤ 1 := by
  cases h : budget.isZero with
  | true =>
    unfold ratio
    rw [if_pos h]
    norm_num [value]
  | false =>
    rw [value_ratio elapsed (totalNanos_pos h)]
    exact min_le_right _ _

/-- The longer time has the greater quotient, and the same number is divided by. -/
theorem ratio_mono (budget : Span) (h : elapsed.totalNanos ≤ later.totalNanos) :
    (ratio elapsed budget).value ≤ (ratio later budget).value := by
  cases hzero : budget.isZero with
  | true =>
    unfold ratio
    rw [if_pos hzero, if_pos hzero]
  | false =>
    have hbudget := totalNanos_pos hzero
    have hquotient : (elapsed.seconds.div budget.seconds).value ≤
        (later.seconds.div budget.seconds).value := by
      refine (rounds_quotient elapsed hbudget).mono (rounds_quotient later hbudget) ?_
      exact div_le_div_of_nonneg_right (Span.seconds_mono h) (seconds_pos hbudget).le
    rw [value_ratio elapsed hbudget, value_ratio later hbudget]
    exact min_le_min_right 1 hquotient

theorem value_seconds_zero : Span.zero.seconds.value = 0 := by
  have hzero : Span.zero.seconds = ⟨0, 1⟩ := by decide
  rw [hzero]
  norm_num [value]

theorem value_ratio_zero (h : budget.isZero = false) : (ratio .zero budget).value = 0 := by
  have hrounds := rounds_quotient .zero (totalNanos_pos h)
  rw [value_seconds_zero, zero_div] at hrounds
  have hzero := hrounds.eq_of_lt (n := 0) (by norm_num)
  rw [value_ratio .zero (totalNanos_pos h), hzero, Nat.cast_zero]
  exact min_eq_left zero_le_one

/-! ## The percentage -/

theorem rounds_percent (elapsed budget : Span) :
    Rounds (percent elapsed budget) ((ratio elapsed budget).value * (100 : ℕ)) := by
  have h := rounds_mul (ratio_den_pos elapsed budget) (rounds_ofNat 100).den_pos
  rwa [value_ofNat (by norm_num)] at h

theorem halfEven_hundredths (elapsed budget : Span) :
    HalfEven (hundredths elapsed budget) ((percent elapsed budget).value * 100) := by
  have h := halfEven_roundHalfEven ((percent elapsed budget).num * powerOfTen 2)
    (rounds_percent elapsed budget).den_pos
  have hhundred : ((powerOfTen 2 : ℕ) : ℚ) = 100 := by norm_num [powerOfTen]
  rwa [Nat.cast_mul, hhundred, mul_div_right_comm] at h

theorem value_percent_le (elapsed budget : Span) : (percent elapsed budget).value ≤ 100 := by
  have hle := value_ratio_le_one elapsed budget
  have hround := (rounds_percent elapsed budget).mono (rounds_ofNat 100) (by push_cast; linarith)
  rwa [value_ofNat (by norm_num)] at hround

theorem percent_mono (budget : Span) (h : elapsed.totalNanos ≤ later.totalNanos) :
    (percent elapsed budget).value ≤ (percent later budget).value := by
  have hratio := ratio_mono budget h
  exact (rounds_percent elapsed budget).mono (rounds_percent later budget) (by gcongr)

theorem hundredths_mono (budget : Span) (h : elapsed.totalNanos ≤ later.totalNanos) :
    hundredths elapsed budget ≤ hundredths later budget := by
  have hpercent := percent_mono budget h
  exact (halfEven_hundredths elapsed budget).mono (halfEven_hundredths later budget) (by gcongr)

/-- The percentage of a ratio that is a whole number. -/
theorem hundredths_of_value_ratio {n : ℕ} (hn : n ≤ 1) (h : (ratio elapsed budget).value = n) :
    hundredths elapsed budget = n * 10000 := by
  have hrounds := rounds_percent elapsed budget
  rw [h, ← Nat.cast_mul] at hrounds
  have hpercent : (percent elapsed budget).value = (n * 100 : ℕ) := hrounds.eq_of_lt (by omega)
  have hhalf := halfEven_hundredths elapsed budget
  have hexact : (percent elapsed budget).value * 100 = (n * 10000 : ℕ) := by
    rw [hpercent]
    push_cast
    ring
  rw [hexact] at hhalf
  exact hhalf.unique (halfEven_self _)

theorem hundredths_le (elapsed budget : Span) : hundredths elapsed budget ≤ 10000 := by
  have hle := value_percent_le elapsed budget
  refine (halfEven_hundredths elapsed budget).mono (halfEven_self 10000) ?_
  push_cast
  linarith

/-! ## The bar -/

theorem product_mono (budget : Span) (h : elapsed.totalNanos ≤ later.totalNanos) :
    (product elapsed budget).value ≤ (product later budget).value := by
  have hratio := ratio_mono budget h
  exact (rounds_product elapsed budget).mono (rounds_product later budget) (by gcongr)

theorem filled_mono (budget : Span) (h : elapsed.totalNanos ≤ later.totalNanos) :
    filled elapsed budget ≤ filled later budget := by
  have hshown := (le_filled_iff elapsed budget _).1 le_rfl
  exact (le_filled_iff later budget _).2 (hshown.trans (min_le_min_right _ (product_mono budget h)))

theorem filled_zero (h : budget.isZero = false) : filled .zero budget = 0 := by
  have hrounds := rounds_product .zero budget
  rw [value_ratio_zero h, mul_zero] at hrounds
  have hzero := hrounds.eq_of_lt (n := 0) (by norm_num)
  by_contra hne
  have hone := (le_filled_iff .zero budget 1).1 (Nat.one_le_iff_ne_zero.2 hne)
  rw [hzero] at hone
  exact absurd (hone.trans (min_le_left _ _)) (by norm_num)

theorem rate_zero (executed : ℕ) : rate .zero executed = 0 := by
  have hzero : Span.zero.seconds.isPositive = false := by decide
  unfold rate
  dsimp only
  rw [hzero]
  rfl

theorem line_shows (elapsed budget : Span) (executed : ℕ) :
    Shows (line elapsed budget executed) budget executed (filled elapsed budget)
      (hundredths elapsed budget) (rate elapsed executed) where
  text_eq := by
    refine ⟨barWidth - filled elapsed budget, Nat.add_sub_of_le (filled_le elapsed budget), ?_⟩
    unfold line bar hundredths
    rw [fixedText_eq_placesText]
  hundredths_le := hundredths_le elapsed budget

/-! ## No number leaves the format -/

theorem cast_le_of_le_maxWord64 {n : ℕ} (h : n ≤ maxWord64) : (n : ℚ) ≤ 2 ^ 64 := by
  have hcast : (n : ℚ) ≤ maxWord64 := by exact_mod_cast h
  exact hcast.trans (by norm_num [maxWord64])

theorem value_seconds_le (s : Span) : s.seconds.value ≤ 2 ^ 70 := by
  have hsecs := cast_le_of_le_maxWord64 s.secs_le
  have hwhole := (rounds_ofNat s.secs).value_le
  have hpart := s.fraction_lt_one
  linarith [s.rounds_seconds.value_le]

/-- A span is at least one part in `2 ^ 30`, and the conversion does not halve it. -/
theorem le_value_seconds {s : Span} (h : 0 < s.totalNanos) : 1 / 2 ^ 31 ≤ s.seconds.value := by
  have hexact := s.sizable_exactSeconds.resolve_left (exactSeconds_pos h).ne'
  have hclose := s.close_seconds.symm.le (by norm_num) (value_nonneg _)
  linarith

theorem isPositive_iff {a : Binary64} (ha : 0 < a.den) : a.isPositive = true ↔ 0 < a.value := by
  have hpos : (0 : ℚ) < a.den := by exact_mod_cast ha
  unfold isPositive value
  rw [decide_eq_true_iff, div_pos_iff_of_pos_right hpos, Nat.cast_pos, Nat.pos_iff_ne_zero]

/-- A budget that is divided by is not zero in seconds. -/
theorem isPositive_seconds (h : budget.isZero = false) : budget.seconds.isPositive = true :=
  (isPositive_iff budget.rounds_seconds.den_pos).2 (seconds_pos (totalNanos_pos h))

theorem totalNanos_pos_of_isPositive {s : Span} (h : s.seconds.isPositive = true) :
    0 < s.totalNanos := by
  refine Nat.pos_of_ne_zero fun hzero => ?_
  obtain rfl : s = Span.zero := Span.totalNanos_inj hzero
  cases h

/-- The quotient of a number of ninety bits and a number of seconds. -/
theorem finite_div_seconds {a : Binary64} {s : Span} (ha : 0 < a.den) (hle : a.value ≤ 2 ^ 90)
    (hs : 0 < s.totalNanos) : (a.div s.seconds).Finite := by
  have hpos := seconds_pos hs
  refine (rounds_div ha s.rounds_seconds.den_pos hpos).finite ?_
  rw [div_le_iff₀ hpos]
  linarith [le_value_seconds hs]

/-- The numbers that a span goes through on its way to seconds. -/
theorem finite_of_mem_conversion (s : Span) :
    ∀ a ∈ [ofNat s.secs, s.fraction, s.seconds], a.Finite := by
  have hsecs := cast_le_of_le_maxWord64 s.secs_le
  have hpart := s.fraction_lt_one
  have hnanos : (s.nanos : ℚ) / nanosPerSecond ≤ 1 := by
    refine div_le_one_of_le₀ ?_ (Nat.cast_nonneg _)
    exact_mod_cast s.nanos_lt.le
  simp only [List.forall_mem_cons, List.not_mem_nil, false_implies, implies_true, and_true]
  refine ⟨(rounds_ofNat s.secs).finite (by linarith), s.rounds_fraction.finite (by linarith), ?_⟩
  refine s.rounds_seconds.finite ?_
  linarith [(rounds_ofNat s.secs).value_le]

/-- The ratio is one at most, and what is computed from it is a small multiple. -/
theorem finite_of_mem_shares (elapsed budget : Span) :
    ∀ a ∈ [ratio elapsed budget, product elapsed budget, percent elapsed budget], a.Finite := by
  have hratio := value_ratio_le_one elapsed budget
  have hlimit : (ratio elapsed budget).value < 2 ^ 1024 :=
    hratio.trans_lt (one_lt_pow₀ (by norm_num) (by norm_num))
  simp only [List.forall_mem_cons, List.not_mem_nil, false_implies, implies_true, and_true]
  refine ⟨⟨ratio_den_pos elapsed budget, hlimit⟩, (rounds_product elapsed budget).finite ?_,
    (rounds_percent elapsed budget).finite ?_⟩
  · norm_num [barWidth]
    linarith
  · push_cast
    linarith

theorem finite_of_mem_numbers (elapsed budget : Span) {executed : ℕ} (h : executed ≤ maxWord64) :
    ∀ a ∈ numbers elapsed budget executed, a.Finite := by
  have hcount := cast_le_of_le_maxWord64 h
  have hexecuted : (ofNat executed).Finite := (rounds_ofNat executed).finite (by linarith)
  intro a ha
  simp only [numbers, List.mem_append, List.mem_flatMap, or_assoc] at ha
  rcases ha with ⟨s, -, hs⟩ | hquotient | hshare | hrate
  · exact finite_of_mem_conversion s a hs
  · -- the budget is divided by only if it is not empty
    cases hzero : budget.isZero with
    | true =>
      rw [if_pos hzero] at hquotient
      cases hquotient
    | false =>
      rw [hzero] at hquotient
      obtain rfl := List.mem_singleton.1 hquotient
      exact finite_div_seconds elapsed.rounds_seconds.den_pos
        ((value_seconds_le elapsed).trans (by norm_num)) (totalNanos_pos hzero)
  · obtain hshare | hcounted : a ∈ [_, _, _] ∨ a ∈ [ofNat executed] := List.mem_append.1 hshare
    · exact finite_of_mem_shares elapsed budget a hshare
    · exact List.mem_singleton.1 hcounted ▸ hexecuted
  · -- and the elapsed time only if some is shown
    split at hrate
    · next hpositive =>
      obtain rfl := List.mem_singleton.1 hrate
      refine finite_div_seconds (rounds_ofNat executed).den_pos ?_
        (totalNanos_pos_of_isPositive hpositive)
      linarith [(rounds_ofNat executed).value_le]
    · cases hrate

/-- The progress line of a budget. Every line has fifty cells, filled ones before the others, and
    a percentage from 0.00 to 100.00; it is computed without a division by zero, and from finite
    numbers alone. With more time elapsed neither the bar nor the percentage is less. A spent
    budget, an empty one among them, has a full bar and 100.00 percent; before any of another
    budget has elapsed the bar is empty, the percentage 0.00 and the rate zero. -/
theorem line_forward (budget : Span) :
    (∀ elapsed executed, Shows (line elapsed budget executed) budget executed
      (filled elapsed budget) (hundredths elapsed budget) (rate elapsed executed)) ∧
    (budget.isZero = false → budget.seconds.isPositive = true) ∧
    (∀ elapsed executed, executed ≤ maxWord64 →
      ∀ a ∈ numbers elapsed budget executed, a.Finite) ∧
    (∀ elapsed later : Span, elapsed.totalNanos ≤ later.totalNanos →
      filled elapsed budget ≤ filled later budget ∧
        hundredths elapsed budget ≤ hundredths later budget) ∧
    (∀ elapsed : Span, budget.totalNanos ≤ elapsed.totalNanos →
      filled elapsed budget = barWidth ∧ placesText (hundredths elapsed budget) = "100.00") ∧
    (budget.isZero = false → filled .zero budget = 0 ∧
      placesText (hundredths .zero budget) = "0.00" ∧ ∀ executed, rate .zero executed = 0) := by
  refine ⟨fun elapsed executed => line_shows elapsed budget executed, isPositive_seconds,
    fun elapsed executed h => finite_of_mem_numbers elapsed budget h,
    fun elapsed later h => ⟨filled_mono budget h, hundredths_mono budget h⟩,
    fun elapsed hspent => ⟨filled_of_spent hspent, ?_⟩,
    fun h => ⟨filled_zero h, ?_, rate_zero⟩⟩
  · -- of a spent budget the share is one, and before any time has elapsed it is zero
    have hone : (ratio elapsed budget).value = (1 : ℕ) := by
      rw [value_ratio_of_spent hspent, Nat.cast_one]
    rw [hundredths_of_value_ratio le_rfl hone]
    decide +kernel
  · have hzero : (ratio .zero budget).value = (0 : ℕ) := by
      rw [value_ratio_zero h, Nat.cast_zero]
    rw [hundredths_of_value_ratio zero_le_one hzero]
    decide +kernel

/-- A minute that is overshot by a second: the line of the 29th second is not ahead of it. -/
theorem forward_of_overshoot :
    (Span.ofSecs 60).isZero = false ∧ (Span.ofSecs 60).seconds.isPositive = true ∧
      (Span.ofSecs 29).totalNanos ≤ (Span.ofSecs 61).totalNanos ∧
      hundredths (Span.ofSecs 29) (Span.ofSecs 60) ≤ hundredths (Span.ofSecs 61) (Span.ofSecs 60) ∧
      (Span.ofSecs 60).totalNanos ≤ (Span.ofSecs 61).totalNanos ∧
      filled (Span.ofSecs 61) (Span.ofSecs 60) = barWidth ∧
      filled .zero (Span.ofSecs 60) = 0 := by
  obtain ⟨-, hpositive, -, hmono, hspent, hstart⟩ := line_forward (Span.ofSecs 60)
  have hbudget : (Span.ofSecs 60).isZero = false := by decide
  have hlater : (Span.ofSecs 29).totalNanos ≤ (Span.ofSecs 61).totalNanos := by decide
  have hover : (Span.ofSecs 60).totalNanos ≤ (Span.ofSecs 61).totalNanos := by decide
  exact ⟨hbudget, hpositive hbudget, hlater, (hmono _ _ hlater).2, hover, (hspent _ hover).1,
    (hstart hbudget).1⟩

end CompilerFuzz.Campaign.Progress
