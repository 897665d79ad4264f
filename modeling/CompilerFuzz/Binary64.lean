/-
  CompilerFuzz.Binary64

  Double-precision numbers that are not negative, as exact fractions. Each operation
  takes the exact result of the fractions and rounds it once: to the nearest number
  with 53 significant bits, a tie to the even one. No result here comes near the
  overflow limit, so there is no infinity.
-/
import CompilerFuzz.Power
import CompilerFuzz.Text.Numeral

namespace CompilerFuzz

open CompilerFuzz.Text

/-- The whole number nearest to `num / den`; a tie goes to the even one. -/
def roundHalfEven (num den : Nat) : Nat :=
  let q := num / den
  let r := num % den
  if 2 * r < den then q
  else if den < 2 * r then q + 1
  else if q % 2 = 0 then q else q + 1

/-- A double-precision number that is not negative, as a fraction. -/
structure Binary64 where
  num : Nat
  den : Nat
  deriving DecidableEq, Repr

namespace Binary64

/-- Is `num / den` below `2 ^ k`? -/
def belowPower (num den : Nat) (k : Int) : Bool :=
  if 0 ≤ k then num < den * powerOfTwo k.toNat else num * powerOfTwo (-k).toNat < den

/-- The exponent of the last of 53 significant bits of `num / den`, but never below that
    of the least positive number. -/
def lastPlace (num den : Nat) : Int :=
  let k : Int := (num.log2 : Int) - den.log2
  max (-1074) (if belowPower num den k then k - 53 else k - 52)

/-- The number nearest to `num / den`. -/
def nearest (num den : Nat) : Binary64 :=
  if num = 0 then ⟨0, 1⟩
  else
    let e := lastPlace num den
    if 0 ≤ e then ⟨roundHalfEven num (den * powerOfTwo e.toNat) * powerOfTwo e.toNat, 1⟩
    else ⟨roundHalfEven (num * powerOfTwo (-e).toNat) den, powerOfTwo (-e).toNat⟩

/-- The number nearest to a natural number. -/
def ofNat (n : Nat) : Binary64 := nearest n 1

/-- The rounded sum. -/
def add (a b : Binary64) : Binary64 :=
  nearest (a.num * b.den + b.num * a.den) (a.den * b.den)

/-- The rounded product. -/
def mul (a b : Binary64) : Binary64 :=
  nearest (a.num * b.num) (a.den * b.den)

/-- The rounded quotient; the divisor is positive. -/
def div (a b : Binary64) : Binary64 :=
  nearest (a.num * b.den) (a.den * b.num)

/-- Is the number positive? -/
def isPositive (a : Binary64) : Bool := a.num ≠ 0

/-- The smaller of a number and one. -/
def atMostOne (a : Binary64) : Binary64 :=
  if a.den < a.num then ⟨1, 1⟩ else a

/-- The whole part. -/
def floor (a : Binary64) : Nat := a.num / a.den

/-- The bits of the interchange format. -/
def bits (a : Binary64) : Nat :=
  if a.num = 0 then 0
  else
    let e := lastPlace a.num a.den
    let m := if 0 ≤ e then a.num / (a.den * powerOfTwo e.toNat) else a.num * powerOfTwo (-e).toNat / a.den
    if m < powerOfTwo 52 then m else (e + 1075).toNat * powerOfTwo 52 + (m - powerOfTwo 52)

/-- The decimal numeral with a fixed number of places, rounded from the exact value, a
    tie to the even last digit. -/
def fixedText (places : Nat) (a : Binary64) : String :=
  let n := roundHalfEven (a.num * powerOfTen places) a.den
  let fraction := numeral (n % powerOfTen places)
  numeralText (n / powerOfTen places) ++ "."
    ++ String.ofList (List.replicate (places - fraction.length) '0' ++ fraction)

/-- A numeral with a fixed number of places stands on one line. -/
theorem newline_notMem_fixedText (places : Nat) (a : Binary64) :
    '\n' ∉ (a.fixedText places).toList := by
  unfold fixedText numeralText
  simp [newline_notMem_numeral, List.mem_replicate]

end Binary64

end CompilerFuzz
