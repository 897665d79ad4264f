/-
  CompilerFuzz.Span.Basic

  Spans of time: whole seconds in a word of 64 bits, and nanoseconds below one second.
-/
import CompilerFuzz.Text.Numeral

namespace CompilerFuzz

open CompilerFuzz.Text

/-- Nanoseconds in a second. -/
def nanosPerSecond : Nat := 1000000000

/-- A span of time. -/
structure Span where
  secs : Nat
  nanos : Nat
  secs_le : secs ≤ maxWord64
  nanos_lt : nanos < nanosPerSecond
  deriving DecidableEq, Repr

namespace Span

/-- The empty span. -/
def zero : Span := ⟨0, 0, by decide, by decide⟩

/-- The span of `n` seconds, or the longest whole number of seconds if `n` is too large. -/
def ofSecs (n : Nat) : Span :=
  ⟨min n maxWord64, 0, Nat.min_le_right .., by decide⟩

/-- The span with the given parts, if they are in range. -/
def ofParts? (secs nanos : Nat) : Option Span :=
  if h : secs ≤ maxWord64 ∧ nanos < nanosPerSecond then some ⟨secs, nanos, h.1, h.2⟩ else none

/-- The length of a span in nanoseconds. -/
def totalNanos (s : Span) : Nat :=
  s.secs * nanosPerSecond + s.nanos

/-- The span of `n` nanoseconds, for any number that a word of 64 bits holds. -/
def ofNanos (n : Nat) (h : n ≤ maxWord64) : Span :=
  ⟨n / nanosPerSecond, n % nanosPerSecond, Nat.le_trans (Nat.div_le_self ..) h,
    Nat.mod_lt _ (by decide)⟩

/-- Is the span empty? -/
def isZero (s : Span) : Bool :=
  s.secs == 0 && s.nanos == 0

instance : LT Span := ⟨fun a b => a.totalNanos < b.totalNanos⟩

instance (a b : Span) : Decidable (a < b) :=
  inferInstanceAs (Decidable (a.totalNanos < b.totalNanos))

/-- Adds seconds and nanoseconds, carrying whole seconds; `none` if a part leaves the
    range of a word. -/
def add? (s : Span) (secs nanos : Nat) : Option Span :=
  if s.nanos + nanos ≤ maxWord64 then
    ofParts? (s.secs + (secs + (s.nanos + nanos) / nanosPerSecond))
      ((s.nanos + nanos) % nanosPerSecond)
  else none

/-! ## Small laws -/

theorem totalNanos_ofNanos (n : Nat) (h : n ≤ maxWord64) : (ofNanos n h).totalNanos = n := by
  simp [totalNanos, ofNanos, Nat.div_add_mod']

theorem ofParts?_self (s : Span) : ofParts? s.secs s.nanos = some s := by
  simp [ofParts?, s.secs_le, s.nanos_lt]

/-- A span is determined by its length. -/
theorem totalNanos_inj {a b : Span} (h : a.totalNanos = b.totalNanos) : a = b := by
  obtain ⟨as, an, _, ha⟩ := a
  obtain ⟨bs, bn, _, hb⟩ := b
  simp only [totalNanos, nanosPerSecond] at h ha hb
  obtain ⟨rfl, rfl⟩ : as = bs ∧ an = bn := by omega
  rfl

end Span

end CompilerFuzz
