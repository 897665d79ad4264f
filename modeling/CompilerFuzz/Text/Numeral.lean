/-
  CompilerFuzz.Text.Numeral

  Decimal numerals of natural numbers. The written form has no leading zero; a
  reader takes any run of ASCII digits, leading zeros included. `numeralValue_numeral` says
  that reading undoes writing.
-/

namespace CompilerFuzz.Text

/-- The ASCII digit for `n % 10`. -/
def digitChar (n : Nat) : Char :=
  Char.ofNat (48 + n % 10)

/-- The value of an ASCII digit. -/
def digitValue (c : Char) : Nat :=
  c.toNat - 48

/-- The decimal numeral of `n`. -/
def numeral (n : Nat) : List Char :=
  if n < 10 then [digitChar n] else numeral (n / 10) ++ [digitChar n]
termination_by n

/-- The decimal numeral of `n`, as a text. -/
def numeralText (n : Nat) : String :=
  String.ofList (numeral n)

/-- The decimal numeral of an integer, with a sign if it is negative. -/
def integerText (i : Int) : String :=
  if i < 0 then "-" ++ numeralText i.natAbs else numeralText i.natAbs

/-- The number that a run of digits denotes. -/
def numeralValue (cs : List Char) : Nat :=
  cs.foldl (fun n c => n * 10 + digitValue c) 0

/-- Reads a non-empty run of ASCII digits whose value is at most `limit`. -/
def readNumeral? (limit : Nat) (cs : List Char) : Option Nat :=
  if cs ≠ [] ∧ cs.all Char.isDigit ∧ numeralValue cs ≤ limit then some (numeralValue cs)
  else none

/-- The largest number of 64 bits. -/
def maxWord64 : Nat := 0xFFFFFFFFFFFFFFFF

/-- The largest number of 32 bits. -/
def maxWord32 : Nat := 0xFFFFFFFF

/-! ## Reading undoes writing -/

theorem digitValue_digitChar (n : Nat) : digitValue (digitChar n) = n % 10 := by
  have h : ∀ d < 10, digitValue (Char.ofNat (48 + d)) = d := by decide
  exact h (n % 10) (Nat.mod_lt _ (by decide))

theorem isDigit_digitChar (n : Nat) : (digitChar n).isDigit = true := by
  have h : ∀ d < 10, (Char.ofNat (48 + d)).isDigit = true := by decide
  exact h (n % 10) (Nat.mod_lt _ (by decide))

theorem numeralValue_append_singleton (cs : List Char) (c : Char) :
    numeralValue (cs ++ [c]) = numeralValue cs * 10 + digitValue c := by
  simp [numeralValue]

theorem numeralValue_numeral (n : Nat) : numeralValue (numeral n) = n := by
  induction n using numeral.induct with
  | case1 n h =>
    rw [numeral, if_pos h]
    simp [numeralValue, digitValue_digitChar, Nat.mod_eq_of_lt h]
  | case2 n h ih =>
    rw [numeral, if_neg h, numeralValue_append_singleton, ih, digitValue_digitChar]
    omega

theorem numeral_ne_nil (n : Nat) : numeral n ≠ [] := by
  rw [numeral]
  split <;> simp

theorem all_isDigit_numeral (n : Nat) : (numeral n).all Char.isDigit = true := by
  induction n using numeral.induct with
  | case1 n h => rw [numeral, if_pos h]; simp [isDigit_digitChar]
  | case2 n h ih => rw [numeral, if_neg h, List.all_append, ih]; simp [isDigit_digitChar]

/-- A numeral stands on one line. -/
theorem newline_notMem_numeral (n : Nat) : '\n' ∉ numeral n := by
  intro h
  have hdigit : '\n'.isDigit = true := List.all_eq_true.1 (all_isDigit_numeral n) _ h
  cases hdigit

theorem newline_notMem_numeralText (n : Nat) : '\n' ∉ (numeralText n).toList := by
  rw [numeralText, String.toList_ofList]
  exact newline_notMem_numeral n

theorem numeral_front (n : Nat) :
    ∃ d ds, numeral n = d :: ds ∧ d.isDigit = true ∧ ds.all Char.isDigit = true := by
  have hdigits := all_isDigit_numeral n
  cases hnum : numeral n with
  | nil => exact absurd hnum (numeral_ne_nil n)
  | cons d ds =>
    rw [hnum, List.all_cons, Bool.and_eq_true] at hdigits
    exact ⟨d, ds, rfl, hdigits⟩

/-- Only the numeral of zero starts with a zero. -/
theorem numeral_front_zero {n : Nat} {ds : List Char} (h : numeral n = '0' :: ds) :
    n = 0 ∧ ds = [] := by
  induction n using numeral.induct generalizing ds with
  | case1 n hn =>
    rw [numeral, if_pos hn] at h
    obtain ⟨hdigit, hds⟩ := List.cons.inj h
    have hvalue := digitValue_digitChar n
    rw [hdigit, Nat.mod_eq_of_lt hn] at hvalue
    exact ⟨hvalue.symm, hds.symm⟩
  | case2 n hn ih =>
    rw [numeral, if_neg hn] at h
    cases hnum : numeral (n / 10) with
    | nil => exact absurd hnum (numeral_ne_nil _)
    | cons d more =>
      rw [hnum] at h ih
      obtain ⟨hzero, -⟩ := ih (congrArg (· :: more) (List.cons.inj h).1)
      omega

theorem readNumeral?_numeral {limit n : Nat} (h : n ≤ limit) :
    readNumeral? limit (numeral n) = some n := by
  simp [readNumeral?, numeral_ne_nil, all_isDigit_numeral, numeralValue_numeral, h]

end CompilerFuzz.Text
