/-
  CompilerFuzz.Campaign.Policy

  What a campaign does when the program generator fails: give up, skip the iteration,
  or try again a number of times.
-/
import CompilerFuzz.Text.Numeral

namespace CompilerFuzz.Campaign

open CompilerFuzz.Text

/-- How a failing generator is handled. -/
inductive Policy
  /-- The campaign ends, as with a compiler failure. -/
  | abort
  /-- The iteration ends without compiling, and the next one starts. -/
  | skip
  /-- The generator runs again, up to `attempts` extra times, before giving up. -/
  | retry (attempts : UInt32)
  deriving DecidableEq, Repr

namespace Policy

/-- The policy in words. -/
def print : Policy → String
  | .abort => "abort"
  | .skip => "skip"
  | .retry n => "retry(" ++ numeralText n.toNat ++ ")"

/-- How often the generator runs at most in one iteration. The count of attempts is a
    word of 32 bits and stops at its largest value. -/
def limit : Policy → Nat
  | .abort | .skip => 1
  | .retry n => min (n.toNat + 1) maxWord32

theorem limit_pos (p : Policy) : 0 < p.limit := by
  cases p with
  | abort => decide
  | skip => decide
  | retry n => exact Nat.lt_min.2 ⟨Nat.succ_pos _, by decide⟩

end Policy

end CompilerFuzz.Campaign
