/-
  CompilerFuzz.Power

  Powers of two and of ten, as natural numbers.
-/

namespace CompilerFuzz

/-- The `k`-th power of two. -/
def powerOfTwo (k : Nat) : Nat := Nat.pow 2 k

/-- The `k`-th power of ten. -/
def powerOfTen (k : Nat) : Nat := Nat.pow 10 k

@[simp] theorem powerOfTwo_zero : powerOfTwo 0 = 1 := rfl

theorem powerOfTwo_succ (k : Nat) : powerOfTwo (k + 1) = powerOfTwo k * 2 := rfl

@[simp] theorem powerOfTen_zero : powerOfTen 0 = 1 := rfl

theorem powerOfTen_succ (k : Nat) : powerOfTen (k + 1) = powerOfTen k * 10 := rfl

theorem powerOfTwo_pos (k : Nat) : 0 < powerOfTwo k := by
  induction k with
  | zero => decide
  | succ k ih => rw [powerOfTwo_succ]; omega

end CompilerFuzz
