/-
  CompilerFuzz.Span.Seconds

  A span as a double-precision number of seconds: the whole seconds, plus the quotient
  of the nanoseconds, each step rounded.
-/
import CompilerFuzz.Binary64
import CompilerFuzz.Span.Basic

namespace CompilerFuzz.Span

/-- The span in seconds. -/
def seconds (s : Span) : Binary64 :=
  (Binary64.ofNat s.secs).add ((Binary64.ofNat s.nanos).div (Binary64.ofNat nanosPerSecond))

end CompilerFuzz.Span
