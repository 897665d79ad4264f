/-
  CompilerFuzz.Triage.Log

  The distinct lines of a log, each at its last appearance. A rule that lets the last
  of several verdicts win therefore sees the same winner as in the raw log.
-/
import CompilerFuzz.Text.Lines

namespace CompilerFuzz.Triage

open CompilerFuzz.Text

/-- Keeps of equal elements only the first one, and none that has been seen before. -/
def keepFirst (seen : List String) : List String → List String
  | [] => []
  | x :: xs => if x ∈ seen then keepFirst seen xs else x :: keepFirst (x :: seen) xs

/-- Keeps of equal elements only the last one, which is the first from behind. -/
def keepLast (xs : List String) : List String :=
  (keepFirst [] xs.reverse).reverse

/-! ## Laws of `keepLast` -/

theorem keepFirst_concat (seen xs : List String) (x : String) :
    keepFirst seen (xs ++ [x]) =
      if x ∈ seen ∨ x ∈ xs then keepFirst seen xs else keepFirst seen xs ++ [x] := by
  induction xs generalizing seen with
  | nil =>
    show (if x ∈ seen then [] else [x]) = _
    simp [keepFirst]
  | cons y ys ih =>
    show (if y ∈ seen then keepFirst seen (ys ++ [x])
      else y :: keepFirst (y :: seen) (ys ++ [x])) = _
    rw [ih, ih, keepFirst]
    by_cases hy : y ∈ seen
    · -- an element that was seen changes nothing
      have hsame : x ∈ seen ∨ x ∈ y :: ys ↔ x ∈ seen ∨ x ∈ ys := by
        rw [List.mem_cons, or_left_comm, or_iff_right_of_imp]
        rintro rfl
        exact .inl hy
      simp only [if_pos hy, hsame]
    · have hsame : x ∈ y :: seen ∨ x ∈ ys ↔ x ∈ seen ∨ x ∈ y :: ys := by
        rw [List.mem_cons, List.mem_cons, or_assoc, or_left_comm]
      simp only [if_neg hy, hsame]
      split <;> rfl

/-- The recursion of `keepLast`: an element goes if it comes again. -/
theorem keepLast_cons (x : String) (xs : List String) :
    keepLast (x :: xs) = if x ∈ xs then keepLast xs else x :: keepLast xs := by
  unfold keepLast
  rw [List.reverse_cons, keepFirst_concat]
  simp only [List.not_mem_nil, false_or, List.mem_reverse]
  split
  · rfl
  · rw [List.reverse_append, List.reverse_singleton, List.singleton_append]

/-- Nothing is lost and nothing is added. -/
theorem mem_keepLast {x : String} {xs : List String} : x ∈ keepLast xs ↔ x ∈ xs := by
  induction xs with
  | nil => rfl
  | cons y ys ih =>
    rw [keepLast_cons, List.mem_cons]
    split
    · next h =>
      rw [ih, iff_or_self]
      rintro rfl
      exact h
    · rw [List.mem_cons, ih]

/-- No line is kept twice. -/
theorem nodup_keepLast (xs : List String) : (keepLast xs).Nodup := by
  induction xs with
  | nil => exact List.nodup_nil
  | cons y ys ih =>
    rw [keepLast_cons]
    split
    · exact ih
    · next h => exact List.nodup_cons.2 ⟨fun hy => h (mem_keepLast.1 hy), ih⟩

/-- Of the lines of a first part those stay that do not come again in the second. -/
theorem keepLast_append (xs ys : List String) :
    keepLast (xs ++ ys) = (keepLast xs).filter (· ∉ ys) ++ keepLast ys := by
  induction xs with
  | nil => rfl
  | cons x xs ih =>
    rw [List.cons_append, keepLast_cons, keepLast_cons]
    simp only [List.mem_append]
    by_cases hxs : x ∈ xs
    · rw [if_pos (.inl hxs), if_pos hxs, ih]
    · by_cases hys : x ∈ ys
      · rw [if_pos (.inr hys), if_neg hxs, ih, List.filter_cons_of_neg (by simpa using hys)]
      · rw [if_neg (by simp [hxs, hys]), if_neg hxs, ih,
          List.filter_cons_of_pos (by simpa using hys), List.cons_append]

/-- Lines that all come again leave no trace. -/
theorem keepLast_append_of_subset {xs ys : List String} (h : xs ⊆ ys) :
    keepLast (xs ++ ys) = keepLast ys := by
  have hnone : (keepLast xs).filter (· ∉ ys) = [] := by
    refine List.filter_eq_nil_iff.2 fun x hx => ?_
    simpa using h (mem_keepLast.1 hx)
  rw [keepLast_append, hnone, List.nil_append]

/-! ## Logs -/

/-- The distinct lines of a log. -/
@[ext]
structure LogLines where
  lines : List String
  nodup : lines.Nodup
  deriving DecidableEq, Repr

namespace LogLines

/-- The distinct lines of a text. -/
def ofText (text : String) : LogLines :=
  ⟨keepLast (rawLines text), nodup_keepLast _⟩

theorem lines_ofText (text : String) : (ofText text).lines = keepLast (rawLines text) := rfl

/-- A log without lines. -/
def empty : LogLines := ⟨[], List.nodup_nil⟩

/-- How many distinct lines there are. -/
def size (log : LogLines) : Nat := log.lines.length

/-- Are there no lines at all? -/
def isEmpty (log : LogLines) : Bool := log.lines.isEmpty

end LogLines

end CompilerFuzz.Triage
