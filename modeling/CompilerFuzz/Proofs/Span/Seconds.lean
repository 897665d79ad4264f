/-
  CompilerFuzz.Proofs.Span.Seconds

  A span in double-precision seconds against its exact length. The conversion rounds twice, the
  whole seconds and the sum, and the fraction of a second once before that; no more than two of
  these errors meet (`close_seconds`). A longer span is never fewer seconds (`seconds_mono`): the
  seconds of a span lie between the numbers nearest to its whole seconds and to the next whole
  second.
-/
import CompilerFuzz.Proofs.Binary64.Rounding
import CompilerFuzz.Span.Seconds

namespace CompilerFuzz.Span

open CompilerFuzz.Text CompilerFuzz.Binary64

variable (s t : Span)

/-- The exact length in seconds. -/
def exactSeconds : ℚ := s.totalNanos / nanosPerSecond

/-- The part of a second, in double precision. -/
def fraction : Binary64 := (ofNat s.nanos).div (ofNat nanosPerSecond)

theorem exactSeconds_eq : s.exactSeconds = s.secs + (s.nanos : ℚ) / nanosPerSecond := by
  unfold exactSeconds totalNanos nanosPerSecond
  push_cast
  field_simp

theorem exactSeconds_nonneg : 0 ≤ s.exactSeconds := by
  unfold exactSeconds
  positivity

/-! ## The two roundings -/

theorem rounds_fraction : Rounds s.fraction ((s.nanos : ℚ) / nanosPerSecond) := by
  have hnanos : (ofNat s.nanos).value = s.nanos :=
    value_ofNat (s.nanos_lt.trans (by norm_num [nanosPerSecond]))
  have hsecond : (ofNat nanosPerSecond).value = nanosPerSecond :=
    value_ofNat (by norm_num [nanosPerSecond])
  have h := rounds_div (rounds_ofNat s.nanos).den_pos (rounds_ofNat nanosPerSecond).den_pos
    (by rw [hsecond]; norm_num [nanosPerSecond])
  rwa [hnanos, hsecond] at h

theorem rounds_seconds : Rounds s.seconds ((ofNat s.secs).value + s.fraction.value) :=
  rounds_add (rounds_ofNat _).den_pos s.rounds_fraction.den_pos

/-! ## How far the seconds are from the length -/

theorem nanosPerSecond_pos : 0 < nanosPerSecond := by
  decide

theorem nanosPerSecond_le : nanosPerSecond ≤ 2 ^ 30 := by
  norm_num [nanosPerSecond]

theorem totalNanos_le : s.totalNanos ≤ 2 ^ 94 := by
  have hsecs : s.secs * nanosPerSecond ≤ maxWord64 * nanosPerSecond :=
    Nat.mul_le_mul_right _ s.secs_le
  have hnanos := s.nanos_lt
  have hbound : maxWord64 * nanosPerSecond + nanosPerSecond ≤ 2 ^ 94 := by
    norm_num [maxWord64, nanosPerSecond]
  unfold totalNanos
  omega

theorem sizable_exactSeconds : Sizable 30 s.exactSeconds :=
  sizable_div _ nanosPerSecond_pos nanosPerSecond_le

theorem close_fraction : Close 1 s.fraction.value ((s.nanos : ℚ) / nanosPerSecond) := by
  have h : Sizable 30 ((s.nanos : ℚ) / nanosPerSecond) :=
    sizable_div _ nanosPerSecond_pos nanosPerSecond_le
  exact s.rounds_fraction.close (h.mono (by norm_num))

theorem close_secs : Close 1 (ofNat s.secs).value s.secs := by
  have h : Sizable 0 ((s.secs : ℚ) / (1 : ℕ)) := sizable_div _ Nat.one_pos le_rfl
  rw [Nat.cast_one, div_one] at h
  exact (rounds_ofNat s.secs).close (h.mono (by norm_num))

theorem close_seconds : Close 2 s.seconds.value s.exactSeconds := by
  have hsum : Close 1 ((ofNat s.secs).value + s.fraction.value) s.exactSeconds := by
    rw [exactSeconds_eq]
    exact s.close_secs.add s.close_fraction
  have hsizable := hsum.sizable (by norm_num) s.rounds_seconds.nonneg s.sizable_exactSeconds
  have hboth := (s.rounds_seconds.close (hsizable.mono (by norm_num))).trans hsum
  exact hboth

/-! ## A longer span is not fewer seconds -/

theorem fraction_lt_one : s.fraction.value < 1 := by
  have hpos : (0 : ℚ) < nanosPerSecond := by exact_mod_cast nanosPerSecond_pos
  have hlast : (s.nanos : ℚ) / nanosPerSecond ≤ 999999999 / 1000000000 := by
    have hnanos : s.nanos ≤ 999999999 := by
      have hlt := s.nanos_lt
      unfold nanosPerSecond at hlt
      omega
    have hcast : (s.nanos : ℚ) ≤ 999999999 := by exact_mod_cast hnanos
    have hall : (999999999 / 1000000000 : ℚ) * nanosPerSecond = 999999999 := by
      norm_num [nanosPerSecond]
    rw [div_le_iff₀ hpos, hall]
    exact hcast
  have hle := s.close_fraction.le (by norm_num) (by positivity)
  linarith

theorem ofNat_secs_le_seconds : (ofNat s.secs).value ≤ s.seconds.value :=
  (rounds_ofNat s.secs).self.mono s.rounds_seconds
    (le_add_of_nonneg_right (value_nonneg s.fraction))

/-- The seconds do not go beyond the next whole second: small ones are exact before the part of a
    second is added, and large ones lose that part. -/
theorem seconds_le_next : s.seconds.value ≤ (ofNat (s.secs + 1)).value := by
  have hlt := s.fraction_lt_one
  by_cases h : s.secs < 2 ^ 53
  · -- less than one is added to the exact number of seconds
    refine s.rounds_seconds.mono (rounds_ofNat (s.secs + 1)) ?_
    rw [value_ofNat h, Nat.cast_add, Nat.cast_one]
    linarith
  · have hlarge : (2 ^ 53 : ℚ) ≤ s.secs := by exact_mod_cast not_lt.1 h
    have hlost := (rounds_ofNat s.secs).add_of_large hlarge (value_nonneg s.fraction) hlt
    calc s.seconds.value ≤ (ofNat s.secs).value := s.rounds_seconds.mono hlost le_rfl
      _ ≤ (ofNat (s.secs + 1)).value := by
        refine (rounds_ofNat s.secs).mono (rounds_ofNat (s.secs + 1)) ?_
        exact_mod_cast Nat.le_succ s.secs

variable {s t}

/-- The parts of the shorter span are smaller, or its whole seconds are. -/
theorem parts_le (h : s.totalNanos ≤ t.totalNanos) :
    s.secs + 1 ≤ t.secs ∨ s.secs = t.secs ∧ s.nanos ≤ t.nanos := by
  have hs := s.nanos_lt
  have ht := t.nanos_lt
  simp only [totalNanos, nanosPerSecond] at h hs ht
  omega

theorem seconds_mono (h : s.totalNanos ≤ t.totalNanos) : s.seconds.value ≤ t.seconds.value := by
  rcases parts_le h with hsecs | ⟨hsecs, hnanos⟩
  · -- a whole second lies between the two spans, itself rounded
    calc s.seconds.value ≤ (ofNat (s.secs + 1)).value := s.seconds_le_next
      _ ≤ (ofNat t.secs).value := by
        refine (rounds_ofNat (s.secs + 1)).mono (rounds_ofNat t.secs) ?_
        exact_mod_cast hsecs
      _ ≤ t.seconds.value := t.ofNat_secs_le_seconds
  · refine s.rounds_seconds.mono t.rounds_seconds ?_
    rw [hsecs]
    have hfraction : s.fraction.value ≤ t.fraction.value := by
      refine s.rounds_fraction.mono t.rounds_fraction ?_
      gcongr
    gcongr

end CompilerFuzz.Span
