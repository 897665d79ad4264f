/-
  CompilerFuzz.Campaign.Latency

  Running statistics of iteration latencies: how many, the least, the greatest and the
  sum, all in nanoseconds. A latency counts for at most what a word of 64 bits holds.
-/
import CompilerFuzz.Span.Seconds

namespace CompilerFuzz.Campaign

open CompilerFuzz.Text

/-- Statistics of the latencies recorded so far. Before the first one, `least` and
    `greatest` are neutral for the minimum and the maximum. -/
structure Latency where
  count : Nat
  least : Nat
  greatest : Nat
  sum : Nat
  deriving DecidableEq, Repr

namespace Latency

/-- Nothing recorded yet. -/
def empty : Latency := ⟨0, maxWord64, 0, 0⟩

/-- What a latency counts for. -/
def clip (s : Span) : Nat := min s.totalNanos maxWord64

/-- Records one latency. -/
def record (l : Latency) (s : Span) : Latency where
  count := l.count + 1
  least := min l.least (clip s)
  greatest := max l.greatest (clip s)
  sum := l.sum + clip s

/-- The span of a number of nanoseconds, or the longest that a word of them holds. -/
def spanOf (n : Nat) : Span := Span.ofNanos (min n maxWord64) (Nat.min_le_right ..)

/-- The fastest iteration. -/
def min? (l : Latency) : Option Span :=
  if l.count = 0 then none else some (spanOf l.least)

/-- The slowest iteration. -/
def max? (l : Latency) : Option Span :=
  if l.count = 0 then none else some (spanOf l.greatest)

/-- The mean latency, rounded down to a nanosecond. -/
def mean? (l : Latency) : Option Span :=
  if l.count = 0 then none else some (spanOf (l.sum / l.count))

/-- Iterations per second over `elapsed`; zero if no time has passed. -/
def throughput (l : Latency) (elapsed : Span) : Binary64 :=
  let secs := elapsed.seconds
  if secs.isPositive then (Binary64.ofNat l.count).div secs else ⟨0, 1⟩

end Latency

end CompilerFuzz.Campaign
