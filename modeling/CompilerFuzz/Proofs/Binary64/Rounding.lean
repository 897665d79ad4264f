/-
  CompilerFuzz.Proofs.Binary64.Rounding

  Rounding as a relation between a number and a fraction. `Rounds a x` says that `a` is `x`
  rounded to 53 significant bits: there is a place `e` of the last bit, and `a` is the multiple
  of `2 ^ e` nearest to `x`, a tie going to the even one. Every operation rounds its exact
  result in this sense (`rounds_add`, `rounds_mul`, `rounds_div`). From the relation alone:

    * greater fractions are rounded to greater numbers, so a fraction is rounded to one number
      (`Rounds.mono`);
    * small whole numbers stay as they are (`Rounds.eq_of_lt`);
    * the relative error is at most one part in `2 ^ 53` (`Rounds.error_le`), and `Close` counts
      how many such errors lie between two fractions;
    * what is rounded from a number far below the overflow limit is `Finite` (`Rounds.finite`).
-/
import CompilerFuzz.Binary64
import Mathlib.Algebra.Order.Field.Power
import Mathlib.Data.Rat.Cast.Order
import Mathlib.Tactic.FieldSimp
import Mathlib.Tactic.Linarith
import Mathlib.Tactic.NormNum
import Mathlib.Tactic.Positivity
import Mathlib.Tactic.Ring

namespace CompilerFuzz

/-! ## The nearest whole number -/

/-- `m` is a whole number nearest to `x`, and the even one if two are equally near. -/
def HalfEven (m : ℕ) (x : ℚ) : Prop :=
  |(m : ℚ) - x| ≤ 1 / 2 ∧ (|(m : ℚ) - x| = 1 / 2 → m % 2 = 0)

theorem halfEven_self (m : ℕ) : HalfEven m m := by
  unfold HalfEven
  rw [sub_self, abs_zero]
  exact ⟨by norm_num, fun h => absurd h (by norm_num)⟩

theorem halfEven_of_lt {m : ℕ} {x : ℚ} (h : |(m : ℚ) - x| < 1 / 2) : HalfEven m x :=
  ⟨h.le, fun heq => absurd heq h.ne⟩

/-- A greater fraction is rounded to a greater number. If it were not, the two fractions would be
    one tie between two neighbours, and both of these even. -/
theorem HalfEven.mono {m n : ℕ} {x y : ℚ} (hm : HalfEven m x) (hn : HalfEven n y) (h : x ≤ y) :
    m ≤ n := by
  by_contra hlt
  have hstep : (n : ℚ) + 1 ≤ m := by exact_mod_cast Nat.lt_of_not_le hlt
  obtain ⟨hmx, hmeven⟩ := hm
  obtain ⟨hny, hneven⟩ := hn
  have hmx' := abs_le.1 hmx
  have hny' := abs_le.1 hny
  have hm_half : (m : ℚ) - x = 1 / 2 := by linarith
  have hn_half : (n : ℚ) - y = -(1 / 2) := by linarith
  have hsucc : (m : ℚ) = n + 1 := by linarith
  have hnat : m = n + 1 := by exact_mod_cast hsucc
  have heven : m % 2 = 0 := hmeven (by rw [hm_half]; norm_num)
  have heven' : n % 2 = 0 := hneven (by rw [hn_half]; norm_num)
  omega

theorem HalfEven.unique {m n : ℕ} {x : ℚ} (hm : HalfEven m x) (hn : HalfEven n x) : m = n :=
  Nat.le_antisymm (hm.mono hn le_rfl) (hn.mono hm le_rfl)

/-- A number between `q` and `q + 1` is nearest to the one on its side of the middle. -/
theorem halfEven_add {q : ℕ} {t : ℚ} (hnonneg : 0 ≤ t) (hlt : t < 1) :
    (t < 1 / 2 → HalfEven q (q + t)) ∧ (1 / 2 < t → HalfEven (q + 1) (q + t)) ∧
      (t = 1 / 2 → q % 2 = 0 → HalfEven q (q + t)) ∧
      (t = 1 / 2 → q % 2 ≠ 0 → HalfEven (q + 1) (q + t)) := by
  have hbelow : |(q : ℚ) - (q + t)| = t := by
    rw [sub_add_cancel_left, abs_neg, abs_of_nonneg hnonneg]
  have habove : |((q + 1 : ℕ) : ℚ) - (q + t)| = 1 - t := by
    have hdiff : ((q + 1 : ℕ) : ℚ) - (q + t) = 1 - t := by
      push_cast
      ring
    rw [hdiff, abs_of_pos (by linarith)]
  refine ⟨fun h => halfEven_of_lt ?_, fun h => halfEven_of_lt ?_, fun h heven => ?_,
    fun h hodd => ?_⟩
  · rw [hbelow]
    exact h
  · rw [habove]
    linarith
  · exact ⟨by rw [hbelow, h], fun _ => heven⟩
  · exact ⟨by rw [habove]; linarith, fun _ => by omega⟩

theorem halfEven_roundHalfEven (num : ℕ) {den : ℕ} (hden : 0 < den) :
    HalfEven (roundHalfEven num den) (num / den) := by
  have hpos : (0 : ℚ) < den := by exact_mod_cast hden
  -- the fraction is its whole part and a remainder of the denominator
  have hsplit : (num : ℚ) / den = (num / den : ℕ) + (num % den : ℕ) / (den : ℚ) := by
    have hnat : (num : ℚ) = (den : ℚ) * (num / den : ℕ) + (num % den : ℕ) := by
      exact_mod_cast (Nat.div_add_mod num den).symm
    rw [hnat]
    field_simp
  have hless : (num % den : ℕ) / (den : ℚ) < 1 := by
    rw [div_lt_one hpos]
    exact_mod_cast Nat.mod_lt num hden
  obtain ⟨hbelow, habove, heven, hodd⟩ :=
    halfEven_add (q := num / den) (t := (num % den : ℕ) / (den : ℚ)) (by positivity) hless
  rw [hsplit]
  unfold roundHalfEven
  dsimp only
  split
  · next h =>
    refine hbelow ?_
    rw [div_lt_iff₀ hpos]
    have hcast : (2 : ℚ) * (num % den : ℕ) < den := by exact_mod_cast h
    linarith
  · split
    · next h =>
      refine habove ?_
      rw [lt_div_iff₀ hpos]
      have hcast : (den : ℚ) < 2 * (num % den : ℕ) := by exact_mod_cast h
      linarith
    · have htie : 2 * (num % den) = den := by omega
      have hhalf : (num % den : ℕ) / (den : ℚ) = 1 / 2 := by
        rw [div_eq_iff hpos.ne']
        have hcast : (2 : ℚ) * (num % den : ℕ) = den := by exact_mod_cast htie
        linarith
      split
      · next h => exact heven hhalf h
      · next h => exact hodd hhalf h

/-! ## Multiples of a power of two -/

theorem two_zpow_add (e : ℤ) (k : ℕ) : (2 : ℚ) ^ (e + k) = (2 ^ k : ℕ) * 2 ^ e := by
  rw [zpow_add₀ (by norm_num), zpow_natCast, mul_comm]
  push_cast
  rfl

/-- Below `2 ^ (e + k)` there are at most `2 ^ k` multiples of `2 ^ e`. -/
theorem HalfEven.le_of_lt {m k : ℕ} {x : ℚ} {e : ℤ} (hm : HalfEven m (x / 2 ^ e))
    (h : x < 2 ^ (e + k)) : m ≤ 2 ^ k := by
  have hepos : (0 : ℚ) < 2 ^ e := by positivity
  refine hm.mono (halfEven_self _) ?_
  rw [div_le_iff₀ hepos, ← two_zpow_add]
  exact h.le

/-- From `2 ^ (e + k)` on there are at least `2 ^ k` multiples of `2 ^ e`. -/
theorem HalfEven.ge_of_le {m k : ℕ} {x : ℚ} {e : ℤ} (hm : HalfEven m (x / 2 ^ e))
    (h : 2 ^ (e + k) ≤ x) : 2 ^ k ≤ m := by
  have hepos : (0 : ℚ) < 2 ^ e := by positivity
  refine (halfEven_self _).mono hm ?_
  rw [le_div_iff₀ hepos, ← two_zpow_add]
  exact h

namespace Binary64

/-! ## The last place -/

/-- The fraction that a number stands for. -/
def value (a : Binary64) : ℚ := a.num / a.den

/-- `a` is `x` rounded to 53 significant bits: the nearest multiple of `2 ^ e`, where `e` is the
    place of the last of these bits, or that of the least positive number if `x` is very small. -/
structure Rounds (a : Binary64) (x : ℚ) : Prop where
  den_pos : 0 < a.den
  nonneg : 0 ≤ x
  place : ∃ (e : ℤ) (m : ℕ), -1074 ≤ e ∧ x < 2 ^ (e + 53) ∧ (e = -1074 ∨ 2 ^ (e + 52) ≤ x) ∧
    HalfEven m (x / 2 ^ e) ∧ a.value = m * 2 ^ e

theorem cast_powerOfTwo (k : ℕ) : (powerOfTwo k : ℚ) = 2 ^ (k : ℤ) := by
  induction k with
  | zero => norm_num
  | succ k ih =>
    rw [powerOfTwo_succ, Nat.cast_mul, ih, zpow_natCast, zpow_natCast, pow_succ]
    norm_num

theorem cast_powerOfTwo_toNat {k : ℤ} (h : 0 ≤ k) : (powerOfTwo k.toNat : ℚ) = 2 ^ k := by
  rw [cast_powerOfTwo, Int.toNat_of_nonneg h]

theorem belowPower_iff {num den : ℕ} (hden : 0 < den) (k : ℤ) :
    belowPower num den k = true ↔ (num : ℚ) / den < 2 ^ k := by
  have hpos : (0 : ℚ) < den := by exact_mod_cast hden
  rw [div_lt_iff₀ hpos]
  unfold belowPower
  split
  · next h =>
    rw [decide_eq_true_iff, ← cast_powerOfTwo_toNat h, mul_comm den]
    exact_mod_cast Iff.rfl
  · next h =>
    have hneg : (0 : ℤ) ≤ -k := by omega
    have hpow : (2 : ℚ) ^ k * 2 ^ (-k) = 1 := by
      rw [← zpow_add₀ (by norm_num), add_neg_cancel, zpow_zero]
    have hk : (0 : ℚ) < 2 ^ (-k) := by positivity
    -- with a negative exponent the other side is scaled
    have hscale : (num : ℚ) < 2 ^ k * den ↔ (num : ℚ) * 2 ^ (-k) < den := by
      rw [← mul_lt_mul_iff_left₀ hk, mul_right_comm, hpow, one_mul]
    rw [decide_eq_true_iff, hscale, ← cast_powerOfTwo_toNat hneg]
    exact_mod_cast Iff.rfl

theorem two_zpow_log2_le {n : ℕ} (h : 0 < n) : (2 : ℚ) ^ (n.log2 : ℤ) ≤ n := by
  rw [zpow_natCast]
  exact_mod_cast Nat.log2_self_le h.ne'

theorem lt_two_zpow_log2 (n : ℕ) : (n : ℚ) < 2 ^ ((n.log2 : ℤ) + 1) := by
  have hnat : n < 2 ^ (n.log2 + 1) := Nat.lt_log2_self
  have hcast : (n : ℚ) < 2 ^ (n.log2 + 1) := by exact_mod_cast hnat
  exact_mod_cast hcast

/-- The bits of numerator and denominator tell the size of a fraction up to a factor of two. -/
theorem log2_bounds {num den : ℕ} (hnum : 0 < num) (hden : 0 < den) :
    (2 : ℚ) ^ ((num.log2 : ℤ) - den.log2 - 1) < num / den ∧
      (num : ℚ) / den < 2 ^ ((num.log2 : ℤ) - den.log2 + 1) := by
  have hpos : (0 : ℚ) < den := by exact_mod_cast hden
  have hnumpos : (0 : ℚ) < num := by exact_mod_cast hnum
  have h2 : (2 : ℚ) ≠ 0 := by norm_num
  -- the lower end takes the denominator at its largest, the upper end at its smallest
  constructor
  · rw [lt_div_iff₀ hpos]
    calc (2 : ℚ) ^ ((num.log2 : ℤ) - den.log2 - 1) * den
        < 2 ^ ((num.log2 : ℤ) - den.log2 - 1) * 2 ^ ((den.log2 : ℤ) + 1) := by
          have := lt_two_zpow_log2 den
          gcongr
      _ = 2 ^ (num.log2 : ℤ) := by
          rw [← zpow_add₀ h2]
          congr 1
          ring
      _ ≤ num := two_zpow_log2_le hnum
  · rw [div_lt_iff₀ hpos]
    calc (num : ℚ) < 2 ^ ((num.log2 : ℤ) + 1) := lt_two_zpow_log2 num
      _ = 2 ^ ((num.log2 : ℤ) - den.log2 + 1) * 2 ^ (den.log2 : ℤ) := by
          rw [← zpow_add₀ h2]
          congr 1
          ring
      _ ≤ 2 ^ ((num.log2 : ℤ) - den.log2 + 1) * den := by
          have := two_zpow_log2_le hden
          gcongr

/-- The last place is where 53 bits of the fraction end, if they do not end below the least
    place there is. -/
theorem lastPlace_spec {num den : ℕ} (hnum : 0 < num) (hden : 0 < den) :
    -1074 ≤ lastPlace num den ∧ (num : ℚ) / den < 2 ^ (lastPlace num den + 53) ∧
      (lastPlace num den = -1074 ∨ (2 : ℚ) ^ (lastPlace num den + 52) ≤ num / den) := by
  obtain ⟨hlow, hhigh⟩ := log2_bounds hnum hden
  -- the place before it is compared with the least one
  obtain ⟨e, he, hbelow, habove⟩ : ∃ e : ℤ, lastPlace num den = max (-1074) e ∧
      (num : ℚ) / den < 2 ^ (e + 53) ∧ (2 : ℚ) ^ (e + 52) ≤ num / den := by
    unfold lastPlace
    dsimp only
    -- one comparison tells which of the two exponents it is
    by_cases h : belowPower num den ((num.log2 : ℤ) - den.log2) = true
    · refine ⟨_, by rw [if_pos h], ?_, ?_⟩
      · rw [sub_add_cancel]
        exact (belowPower_iff hden _).1 h
      · have hplace : (num.log2 : ℤ) - den.log2 - 53 + 52 = (num.log2 : ℤ) - den.log2 - 1 := by ring
        rw [hplace]
        exact hlow.le
    · refine ⟨_, by rw [if_neg h], ?_, ?_⟩
      · have hplace : (num.log2 : ℤ) - den.log2 - 52 + 53 = (num.log2 : ℤ) - den.log2 + 1 := by ring
        rw [hplace]
        exact hhigh
      · rw [sub_add_cancel]
        exact not_lt.1 fun hlt => h ((belowPower_iff hden _).2 hlt)
  rw [he]
  refine ⟨le_max_left _ _, hbelow.trans_le ?_, ?_⟩
  · exact zpow_le_zpow_right₀ (by norm_num) (by omega)
  · by_cases h : e ≤ -1074
    · exact .inl (max_eq_left h)
    · right
      rw [max_eq_right (by omega)]
      exact habove

/-! ## Rounding is nearest -/

theorem rounds_zero : Rounds ⟨0, 1⟩ 0 where
  den_pos := Nat.one_pos
  nonneg := le_rfl
  place := by
    refine ⟨-1074, 0, le_rfl, by positivity, .inl rfl, ?_, by simp [value]⟩
    rw [zero_div]
    exact_mod_cast halfEven_self 0

/-- A fraction is rounded to the number nearest to it. -/
theorem rounds_nearest (num : ℕ) {den : ℕ} (hden : 0 < den) :
    Rounds (nearest num den) (num / den) := by
  by_cases hzero : num = 0
  · have hnone : nearest num den = ⟨0, 1⟩ := if_pos hzero
    rw [hnone, hzero, Nat.cast_zero, zero_div]
    exact rounds_zero
  · have hnonneg : (0 : ℚ) ≤ (num : ℚ) / den := by positivity
    obtain ⟨hleast, hbelow, habove⟩ := lastPlace_spec (Nat.pos_of_ne_zero hzero) hden
    unfold nearest
    rw [if_neg hzero]
    dsimp only
    generalize lastPlace num den = e at *
    split
    · next he =>
      -- the last place is a whole number, and the denominator takes it
      have hpow := cast_powerOfTwo_toNat he
      have hscaled : 0 < den * powerOfTwo e.toNat := Nat.mul_pos hden (powerOfTwo_pos _)
      refine ⟨Nat.one_pos, hnonneg, e, roundHalfEven num (den * powerOfTwo e.toNat), hleast, hbelow,
        habove, ?_, ?_⟩
      · have hhalf := halfEven_roundHalfEven num hscaled
        rwa [Nat.cast_mul, hpow, ← div_div] at hhalf
      · simp [value, hpow]
    · next he =>
      -- the last place is a fraction, and the numerator takes its inverse
      have hneg : (0 : ℤ) ≤ -e := by omega
      have hpow := cast_powerOfTwo_toNat hneg
      refine ⟨powerOfTwo_pos _, hnonneg, e, roundHalfEven (num * powerOfTwo (-e).toNat) den, hleast,
        hbelow, habove, ?_, ?_⟩
      · have hhalf := halfEven_roundHalfEven (num * powerOfTwo (-e).toNat) hden
        rwa [Nat.cast_mul, hpow, zpow_neg, ← div_eq_mul_inv, div_right_comm] at hhalf
      · simp [value, hpow, div_eq_mul_inv]

variable {a b : Binary64} {x y : ℚ}

theorem rounds_ofNat (n : ℕ) : Rounds (ofNat n) n := by
  have h := rounds_nearest n Nat.one_pos
  rwa [Nat.cast_one, div_one] at h

section Operations

variable (ha : 0 < a.den) (hb : 0 < b.den)
include ha hb

theorem rounds_add : Rounds (a.add b) (a.value + b.value) := by
  have hapos : (0 : ℚ) < a.den := by exact_mod_cast ha
  have hbpos : (0 : ℚ) < b.den := by exact_mod_cast hb
  have h := rounds_nearest (a.num * b.den + b.num * a.den) (Nat.mul_pos ha hb)
  have hexact : ((a.num * b.den + b.num * a.den : ℕ) : ℚ) / (a.den * b.den : ℕ) =
      a.value + b.value := by
    unfold value
    push_cast
    field_simp
  rwa [hexact] at h

theorem rounds_mul : Rounds (a.mul b) (a.value * b.value) := by
  have h := rounds_nearest (a.num * b.num) (Nat.mul_pos ha hb)
  have hexact : ((a.num * b.num : ℕ) : ℚ) / (a.den * b.den : ℕ) = a.value * b.value := by
    unfold value
    push_cast
    rw [div_mul_div_comm]
  rwa [hexact] at h

theorem rounds_div (hpos : 0 < b.value) : Rounds (a.div b) (a.value / b.value) := by
  have hbpos : (0 : ℚ) < b.den := by exact_mod_cast hb
  have hnum : 0 < b.num := by
    have hcast : (0 : ℚ) < b.num := (div_pos_iff_of_pos_right hbpos).1 hpos
    exact_mod_cast hcast
  have h := rounds_nearest (a.num * b.den) (Nat.mul_pos ha hnum)
  have hexact : ((a.num * b.den : ℕ) : ℚ) / (a.den * b.num : ℕ) = a.value / b.value := by
    unfold value
    push_cast
    rw [div_div_div_eq]
  rwa [hexact] at h

end Operations

/-! ## Order -/

theorem value_nonneg (a : Binary64) : 0 ≤ a.value := by
  unfold value
  positivity

/-- A greater fraction is rounded to a greater number. With one last place for both this is so for
    whole numbers; with different places a power of two lies between the two numbers. -/
theorem Rounds.mono (ha : Rounds a x) (hb : Rounds b y) (h : x ≤ y) : a.value ≤ b.value := by
  obtain ⟨-, -, e, m, he, hx, hxlow, hm, hvalue⟩ := ha
  obtain ⟨-, -, f, n, hf, hy, hylow, hn, hvalue'⟩ := hb
  rw [hvalue, hvalue']
  rcases lt_trichotomy e f with hlt | rfl | hgt
  · -- `2 ^ (e + 53)` is not below the one number and not above the other
    have hmtop : (m : ℚ) ≤ (2 ^ 53 : ℕ) := by exact_mod_cast hm.le_of_lt hx
    have hnlow : ((2 ^ 52 : ℕ) : ℚ) ≤ n := by
      exact_mod_cast hn.ge_of_le (hylow.resolve_left (by omega))
    calc (m : ℚ) * 2 ^ e ≤ (2 ^ 53 : ℕ) * 2 ^ e := by gcongr
      _ = 2 ^ (e + (53 : ℕ)) := (two_zpow_add e 53).symm
      _ ≤ 2 ^ (f + (52 : ℕ)) := zpow_le_zpow_right₀ (by norm_num) (by omega)
      _ = (2 ^ 52 : ℕ) * 2 ^ f := two_zpow_add f 52
      _ ≤ n * 2 ^ f := by gcongr
  · have hmn : m ≤ n := hm.mono hn (by gcongr)
    gcongr
  · -- the last place of the greater fraction cannot be the lower one
    have hxlow' := hxlow.resolve_left (by omega)
    have hpow : (2 : ℚ) ^ (f + 53) ≤ 2 ^ (e + 52) := zpow_le_zpow_right₀ (by norm_num) (by omega)
    linarith

/-- A whole number of 53 bits is rounded to itself: its last place is not above the units. -/
theorem Rounds.eq_of_lt {n : ℕ} (ha : Rounds a n) (h : n < 2 ^ 53) : a.value = n := by
  obtain ⟨-, -, e, m, he, hx, hlow, hm, hvalue⟩ := ha
  have hle : e ≤ 0 := by
    by_contra hgt
    have hpow : (2 : ℚ) ^ (53 : ℤ) ≤ 2 ^ (e + 52) := zpow_le_zpow_right₀ (by norm_num) (by omega)
    have hlow' := hlow.resolve_left (by omega)
    have hcast : (n : ℚ) < 2 ^ (53 : ℤ) := by exact_mod_cast h
    linarith
  have hscaled : (n : ℚ) / 2 ^ e = (n * 2 ^ (-e).toNat : ℕ) := by
    have hnat : ((-e).toNat : ℤ) = -e := Int.toNat_of_nonneg (by omega)
    rw [Nat.cast_mul, Nat.cast_pow, ← zpow_natCast, hnat, zpow_neg, Nat.cast_ofNat, div_eq_mul_inv]
  have hm' : m = n * 2 ^ (-e).toNat := by
    rw [hscaled] at hm
    exact hm.unique (halfEven_self _)
  rw [hvalue, hm', ← hscaled]
  exact div_mul_cancel₀ _ (by positivity)

theorem value_ofNat {n : ℕ} (h : n < 2 ^ 53) : (ofNat n).value = n :=
  (rounds_ofNat n).eq_of_lt h

/-! ## Small summands -/

/-- A number of 53 bits stays as it is if less than half of its last place is added. -/
theorem rounds_of_bits {e : ℤ} {m : ℕ} {b : ℚ} (hden : 0 < a.den) (he : -1074 ≤ e)
    (hm : m < 2 ^ 53) (hlow : e = -1074 ∨ 2 ^ 52 ≤ m) (hvalue : a.value = m * 2 ^ e) (hb : 0 ≤ b)
    (hless : 2 * b < 2 ^ e) : Rounds a (a.value + b) := by
  have hepos : (0 : ℚ) < 2 ^ e := by positivity
  refine ⟨hden, add_nonneg (value_nonneg a) hb, e, m, he, ?_, hlow.imp_right fun h => ?_, ?_,
    hvalue⟩
  · have hm' : (m : ℚ) + 1 ≤ (2 ^ 53 : ℕ) := by exact_mod_cast hm
    calc a.value + b < a.value + 2 ^ e := by linarith
      _ = (m + 1) * 2 ^ e := by rw [hvalue, add_mul, one_mul]
      _ ≤ (2 ^ 53 : ℕ) * 2 ^ e := by gcongr
      _ = 2 ^ (e + 53) := (two_zpow_add e 53).symm
  · have hm' : ((2 ^ 52 : ℕ) : ℚ) ≤ m := by exact_mod_cast h
    calc (2 : ℚ) ^ (e + 52) = (2 ^ 52 : ℕ) * 2 ^ e := two_zpow_add e 52
      _ ≤ m * 2 ^ e := by gcongr
      _ ≤ a.value + b := by rw [hvalue]; linarith
  · -- counted in last places the sum is less than half of one above the whole number `m`
    have hsplit : (a.value + b) / 2 ^ e = m + b / 2 ^ e := by
      rw [hvalue, add_div, mul_div_cancel_right₀ _ hepos.ne']
    have hhalf : b / 2 ^ e < 1 / 2 := by
      rw [div_lt_iff₀ hepos]
      linarith
    rw [hsplit]
    exact (halfEven_add (by positivity) (by linarith)).1 hhalf

/-- What is less than half of the last place is lost when it is added to a rounded number. -/
theorem Rounds.absorb {b : ℚ} (ha : Rounds a x) (hb : 0 ≤ b)
    (hless : ∀ e : ℤ, x < 2 ^ (e + 53) → 2 * b < 2 ^ e) : Rounds a (a.value + b) := by
  obtain ⟨hden, -, e, m, he, hx, hlow, hm, hvalue⟩ := ha
  have hsmall := hless e hx
  rcases Nat.lt_or_eq_of_le (hm.le_of_lt hx) with hlt | rfl
  · exact rounds_of_bits hden he hlt (hlow.imp_right fun h => hm.ge_of_le h) hvalue hb hsmall
  · -- rounding went up to the next power of two, whose last place is one higher
    have hvalue' : a.value = (2 ^ 52 : ℕ) * 2 ^ (e + 1) := by
      rw [hvalue, zpow_add_one₀ (by norm_num)]
      push_cast
      ring
    have hstep : (2 : ℚ) ^ e ≤ 2 ^ (e + 1) := zpow_le_zpow_right₀ (by norm_num) (by omega)
    exact rounds_of_bits hden (by omega) (by norm_num) (.inr le_rfl) hvalue' hb
      (hsmall.trans_le hstep)

/-- A rounded number is rounded to itself. -/
theorem Rounds.self (ha : Rounds a x) : Rounds a a.value := by
  have h := ha.absorb (b := 0) le_rfl fun e _ => by
    rw [mul_zero]
    positivity
  rwa [add_zero] at h

/-- From `2 ^ 53` on, less than one is lost when it is added. -/
theorem Rounds.add_of_large {b : ℚ} (ha : Rounds a x) (hx : 2 ^ 53 ≤ x) (hb : 0 ≤ b)
    (hlt : b < 1) : Rounds a (a.value + b) := by
  refine ha.absorb hb fun e he => ?_
  have hpow : (2 : ℚ) ^ (53 : ℤ) < 2 ^ (e + 53) := by
    have : (2 : ℚ) ^ (53 : ℤ) ≤ x := by exact_mod_cast hx
    linarith
  have hone : 53 < e + 53 := (zpow_lt_zpow_iff_right₀ (by norm_num)).1 hpow
  have htwo : (2 : ℚ) ^ (1 : ℤ) ≤ 2 ^ e := zpow_le_zpow_right₀ (by norm_num) (by omega)
  rw [zpow_one] at htwo
  linarith

/-! ## The relative error -/

/-- The relative error of rounding a number that is not very small. -/
theorem Rounds.error_le (ha : Rounds a x) (h : 2 ^ (-1022 : ℤ) ≤ x) :
    |a.value - x| ≤ x / 2 ^ 53 := by
  obtain ⟨-, -, e, m, he, hx, hlow, ⟨hm, -⟩, hvalue⟩ := ha
  have hepos : (0 : ℚ) < 2 ^ e := by positivity
  -- above the least normal number all 53 bits are significant
  have hbits : (2 : ℚ) ^ (e + 52) ≤ x := by
    rcases hlow with rfl | hlow
    · exact h
    · exact hlow
  have hplace : (2 : ℚ) ^ (e + 52) = (2 ^ 52 : ℕ) * 2 ^ e := two_zpow_add e 52
  have hsplit : a.value - x = (m - x / 2 ^ e) * 2 ^ e := by
    rw [hvalue, sub_mul, div_mul_cancel₀ _ hepos.ne']
  calc |a.value - x| = |(m : ℚ) - x / 2 ^ e| * 2 ^ e := by rw [hsplit, abs_mul, abs_of_pos hepos]
    _ ≤ 1 / 2 * 2 ^ e := by gcongr
    _ = 2 ^ (e + 52) / 2 ^ 53 := by
      rw [hplace]
      push_cast
      ring
    _ ≤ x / 2 ^ 53 := by gcongr

/-! ## Overflow -/

/-- A number that the format has: its denominator is positive, and it is below the overflow
    limit. -/
structure Finite (a : Binary64) : Prop where
  den_pos : 0 < a.den
  value_lt : a.value < 2 ^ 1024

/-- Rounding at most doubles a number that is not very small. -/
theorem Rounds.value_le (ha : Rounds a x) : a.value ≤ 2 * x + 1 := by
  obtain ⟨-, hnonneg, e, m, he, hx, hlow, ⟨hm, -⟩, hvalue⟩ := ha
  have hepos : (0 : ℚ) < 2 ^ e := by positivity
  have hm' : (m : ℚ) ≤ x / 2 ^ e + 1 / 2 := by linarith [(abs_le.1 hm).2]
  have hplace : (2 : ℚ) ^ e ≤ x + 1 := by
    rcases hlow with rfl | hlow
    · have hleast : (2 : ℚ) ^ (-1074 : ℤ) ≤ 2 ^ (0 : ℤ) :=
        zpow_le_zpow_right₀ (by norm_num) (by norm_num)
      rw [zpow_zero] at hleast
      linarith
    · have hstep : (2 : ℚ) ^ e ≤ 2 ^ (e + 52) := zpow_le_zpow_right₀ (by norm_num) (by omega)
      linarith
  calc a.value = m * 2 ^ e := hvalue
    _ ≤ (x / 2 ^ e + 1 / 2) * 2 ^ e := by gcongr
    _ = x + 2 ^ e / 2 := by
      rw [add_mul, div_mul_cancel₀ _ hepos.ne', one_div_mul_eq_div]
    _ ≤ 2 * x + 1 := by linarith

theorem Rounds.finite (ha : Rounds a x) (h : x ≤ 2 ^ 200) : a.Finite := by
  refine ⟨ha.den_pos, ?_⟩
  calc a.value ≤ 2 * x + 1 := ha.value_le
    _ ≤ 2 ^ 202 := by linarith
    _ < 2 ^ 1024 := pow_lt_pow_right₀ (by norm_num) (by norm_num)

/-- Between `x` and `y` there are at most `n` roundings: the greater is at most `n` times one part
    in `2 ^ 52` above the other. -/
structure Close (n : ℕ) (x y : ℚ) : Prop where
  le_mul : x ≤ (1 + 1 / 2 ^ 52) ^ n * y
  ge_mul : y ≤ (1 + 1 / 2 ^ 52) ^ n * x

theorem Close.symm {n : ℕ} {x y : ℚ} (h : Close n x y) : Close n y x :=
  ⟨h.ge_mul, h.le_mul⟩

theorem mul_trans {n k : ℕ} {x y z : ℚ} (hxy : x ≤ (1 + 1 / 2 ^ 52) ^ n * y)
    (hyz : y ≤ (1 + 1 / 2 ^ 52) ^ k * z) : x ≤ (1 + 1 / 2 ^ 52) ^ (n + k) * z :=
  calc x ≤ (1 + 1 / 2 ^ 52) ^ n * y := hxy
    _ ≤ (1 + 1 / 2 ^ 52) ^ n * ((1 + 1 / 2 ^ 52) ^ k * z) := by gcongr
    _ = (1 + 1 / 2 ^ 52) ^ (n + k) * z := by rw [pow_add, mul_assoc]

theorem Close.trans {n k : ℕ} {x y z : ℚ} (hxy : Close n x y) (hyz : Close k y z) :
    Close (n + k) x z := by
  refine ⟨mul_trans hxy.le_mul hyz.le_mul, ?_⟩
  rw [add_comm n k]
  exact mul_trans hyz.ge_mul hxy.ge_mul

theorem Close.const_mul {n : ℕ} {x y c : ℚ} (h : Close n x y) (hc : 0 ≤ c) :
    Close n (c * x) (c * y) where
  le_mul := by
    rw [mul_left_comm]
    exact mul_le_mul_of_nonneg_left h.le_mul hc
  ge_mul := by
    rw [mul_left_comm]
    exact mul_le_mul_of_nonneg_left h.ge_mul hc

theorem Close.add {n : ℕ} {x y z w : ℚ} (hxy : Close n x y) (hzw : Close n z w) :
    Close n (x + z) (y + w) where
  le_mul := by
    rw [mul_add]
    exact add_le_add hxy.le_mul hzw.le_mul
  ge_mul := by
    rw [mul_add]
    exact add_le_add hxy.ge_mul hzw.ge_mul

theorem div_le_mul_div {n k : ℕ} {x y z w : ℚ} (hxy : x ≤ (1 + 1 / 2 ^ 52) ^ n * y)
    (hzw : w ≤ (1 + 1 / 2 ^ 52) ^ k * z) (hy : 0 ≤ y) (hz : 0 < z) (hw : 0 < w) :
    x / z ≤ (1 + 1 / 2 ^ 52) ^ (n + k) * (y / w) := by
  rw [div_le_iff₀ hz]
  calc x ≤ (1 + 1 / 2 ^ 52) ^ n * y := hxy
    _ = (1 + 1 / 2 ^ 52) ^ n * (y / w) * w := by rw [mul_assoc, div_mul_cancel₀ _ hw.ne']
    _ ≤ (1 + 1 / 2 ^ 52) ^ n * (y / w) * ((1 + 1 / 2 ^ 52) ^ k * z) := by gcongr
    _ = (1 + 1 / 2 ^ 52) ^ (n + k) * (y / w) * z := by
      rw [pow_add]
      ring

/-- The errors of dividend and divisor add up. -/
theorem Close.div {n k : ℕ} {x y z w : ℚ} (hxy : Close n x y) (hzw : Close k z w) (hx : 0 ≤ x)
    (hy : 0 ≤ y) (hz : 0 < z) (hw : 0 < w) : Close (n + k) (x / z) (y / w) :=
  ⟨div_le_mul_div hxy.le_mul hzw.ge_mul hy hz hw, div_le_mul_div hxy.ge_mul hzw.le_mul hx hw hz⟩

theorem min_one_le_mul {n : ℕ} {x y : ℚ} (h : x ≤ (1 + 1 / 2 ^ 52) ^ n * y) :
    min x 1 ≤ (1 + 1 / 2 ^ 52) ^ n * min y 1 := by
  have hone : (1 : ℚ) ≤ (1 + 1 / 2 ^ 52) ^ n := one_le_pow₀ (by norm_num)
  rw [mul_min_of_nonneg _ _ (by positivity), mul_one]
  exact min_le_min h hone

theorem Close.min_one {n : ℕ} {x y : ℚ} (h : Close n x y) : Close n (min x 1) (min y 1) :=
  ⟨min_one_le_mul h.le_mul, min_one_le_mul h.ge_mul⟩

/-! ## Numbers that are not very small -/

/-- Zero, or at least one part in `2 ^ k`. -/
def Sizable (k : ℕ) (x : ℚ) : Prop := x = 0 ∨ 1 / 2 ^ k ≤ x

theorem Sizable.mono {k l : ℕ} (h : Sizable k x) (hkl : k ≤ l) : Sizable l x := by
  refine h.imp_right fun hx => le_trans ?_ hx
  have hpow : (2 : ℚ) ^ k ≤ 2 ^ l := pow_le_pow_right₀ (by norm_num) hkl
  gcongr

theorem sizable_div (m : ℕ) {n k : ℕ} (hn : 0 < n) (hnk : n ≤ 2 ^ k) :
    Sizable k ((m : ℚ) / n) := by
  have hnpos : (0 : ℚ) < n := by exact_mod_cast hn
  rcases Nat.eq_zero_or_pos m with rfl | hpos
  · left
    rw [Nat.cast_zero, zero_div]
  · right
    have hone : (1 : ℚ) ≤ m := by exact_mod_cast hpos
    have hbound : (n : ℚ) ≤ 2 ^ k := by exact_mod_cast hnk
    gcongr

theorem Sizable.min_one {k : ℕ} (h : Sizable k x) : Sizable k (min x 1) := by
  rcases h with rfl | hx
  · exact .inl (min_eq_left zero_le_one)
  · refine .inr (le_min hx ?_)
    rw [div_le_one (by positivity)]
    exact one_le_pow₀ (by norm_num)

theorem Sizable.const_mul {k : ℕ} {c : ℚ} (h : Sizable k x) (hc : 1 ≤ c) : Sizable k (c * x) := by
  rcases h with rfl | hx
  · exact .inl (mul_zero c)
  · have hpos : (0 : ℚ) ≤ 1 / 2 ^ k := by positivity
    exact .inr (hx.trans (le_mul_of_one_le_left (hpos.trans hx) hc))

/-- One rounding of a number that is not very small. -/
theorem Rounds.close (ha : Rounds a x) (h : Sizable 1022 x) : Close 1 a.value x := by
  rcases h with rfl | h
  · have hzero : a.value = 0 := by
      have hround : Rounds a (0 : ℕ) := by simpa using ha
      simpa using hround.eq_of_lt (by norm_num)
    rw [hzero]
    constructor <;> rw [mul_zero]
  · have hleast : (2 : ℚ) ^ (-1022 : ℤ) = 1 / 2 ^ 1022 := by
      rw [zpow_neg, one_div]
      rfl
    have herror := abs_le.1 (ha.error_le (hleast.le.trans h))
    have hnonneg := ha.nonneg
    constructor
    · rw [pow_one]
      linarith
    · rw [pow_one]
      linarith

/-- Six roundings make a difference of at most eight parts in `2 ^ 52`. -/
theorem Close.le {n : ℕ} {y : ℚ} (h : Close n x y) (hn : n ≤ 6) (hy : 0 ≤ y) :
    x ≤ (1 + 1 / 2 ^ 49) * y := by
  have hpow : (1 + 1 / 2 ^ 52 : ℚ) ^ n ≤ 1 + 1 / 2 ^ 49 :=
    calc (1 + 1 / 2 ^ 52 : ℚ) ^ n ≤ (1 + 1 / 2 ^ 52) ^ 6 := pow_le_pow_right₀ (by norm_num) hn
      _ ≤ 1 + 1 / 2 ^ 49 := by norm_num
  exact h.le_mul.trans (by gcongr)

theorem Close.sizable {n k : ℕ} {y : ℚ} (h : Close n x y) (hn : n ≤ 6) (hx : 0 ≤ x)
    (hy : Sizable k y) : Sizable (k + 1) x := by
  rcases hy with rfl | hy
  · left
    refine le_antisymm ?_ hx
    have hle := h.le_mul
    rwa [mul_zero] at hle
  · right
    have hle := h.symm.le hn hx
    rw [pow_succ]
    have htwo : (1 : ℚ) / (2 ^ k * 2) = 1 / 2 ^ k / 2 := by rw [div_div]
    rw [htwo]
    linarith

end Binary64

end CompilerFuzz
