/-
  CompilerFuzz.Text.Pattern

  Search patterns with groups, and what the groups capture. The ways in which a pattern
  matches at the front of a text are tried in a fixed order: an alternative before the one
  behind it, a longer repetition before a shorter one. The first way that lets the rest of
  the whole pattern match is taken, at the leftmost position that has one.

  A matcher gets what is to be matched behind it as a continuation (`Pattern.first?`). A
  repetition then takes the longest run it can if nothing behind it fails there, or if what
  comes behind it cannot start inside a run (`Pattern.greedy_eq_longest`).
-/
import CompilerFuzz.Text.Scan

namespace CompilerFuzz.Text

/-- A search pattern. -/
inductive Pattern
  /-- The given characters. -/
  | word (w : List Char)
  /-- Characters that pass a test, `least` of them or more, as many as possible. -/
  | many (least : Nat) (test : Char → Bool)
  | seq (p q : Pattern)
  /-- The first pattern, and the second one if that leads nowhere. -/
  | alt (p q : Pattern)
  /-- A pattern whose part of the text is captured. -/
  | group (p : Pattern)

namespace Pattern

/-- One way to match at the front of a text. -/
structure Way where
  matched : List Char
  /-- What the groups capture, in the order in which they open. -/
  captures : List (List Char)
  rest : List Char

/-- One way behind another. -/
def Way.append (a b : Way) : Way := ⟨a.matched ++ b.matched, a.captures ++ b.captures, b.rest⟩

/-- A way whose own part is captured too. -/
def Way.capture (a : Way) : Way := ⟨a.matched, a.matched :: a.captures, a.rest⟩

variable {β : Type}

/-- The answer of `k` for the longest run of characters that pass the test, and that has one.
    `k` gets the run and what follows it. -/
def greedy (test : Char → Bool) :
    (least : Nat) → List Char → (k : List Char → List Char → Option β) → Option β
  | least, [], k => if least = 0 then k [] [] else none
  | least, c :: cs, k =>
    (if test c then greedy test (least - 1) cs fun run rest => k (c :: run) rest else none).or
      (if least = 0 then k [] (c :: cs) else none)

/-- The answer of `k` for the first way to match that has one. -/
def first? : Pattern → List Char → (k : Way → Option β) → Option β
  | word w, cs, k => (after? w cs).bind fun rest => k ⟨w, [], rest⟩
  | many least test, cs, k => greedy test least cs fun run rest => k ⟨run, [], rest⟩
  | seq p q, cs, k => first? p cs fun a => first? q a.rest fun b => k (a.append b)
  | alt p q, cs, k => (first? p cs k).or (first? q cs k)
  | group p, cs, k => first? p cs fun a => k a.capture

/-- What the groups capture at the front of a text. -/
def capturesHere? (p : Pattern) (cs : List Char) : Option (List (List Char)) :=
  p.first? cs fun a => some a.captures

/-- What the groups capture at the leftmost position where the pattern matches. -/
def captures? (p : Pattern) (cs : List Char) : Option (List (List Char)) :=
  leftmost? p.capturesHere? cs

/-- What is captured at every position is captured at the leftmost one. -/
theorem captures?_eq_map {α : Type} {p : Pattern} {here? : List Char → Option α}
    {g : α → List (List Char)} (h : ∀ cs, p.capturesHere? cs = (here? cs).map g) (cs : List Char) :
    p.captures? cs = (leftmost? here? cs).map g := by
  have hsame : p.capturesHere? = fun cs => (here? cs).map g := funext h
  unfold captures?
  rw [hsame, leftmost?_map]

/-! ## Repetitions -/

section Greedy

variable {test : Char → Bool} {least : Nat} {cs : List Char} {k : List Char → List Char → Option β}

theorem greedy_eq_none (h : (cs.takeWhile test).length < least) :
    greedy test least cs k = none := by
  have hleast : least ≠ 0 := Nat.ne_zero_of_lt h
  induction cs generalizing least k with
  | nil => exact if_neg hleast
  | cons c cs ih =>
    unfold greedy
    rw [if_neg hleast, Option.or_none]
    by_cases hc : test c = true
    · rw [List.takeWhile_cons_of_pos hc, List.length_cons] at h
      rw [if_pos hc]
      apply ih
      · omega
      · omega
    · exact if_neg hc

/-- The longest run is taken if `k` has an answer for it, or has none for any shorter run. -/
theorem greedy_eq_longest (h : least ≤ (cs.takeWhile test).length)
    (hk : (∃ b, k (cs.takeWhile test) (cs.dropWhile test) = some b) ∨
      ∀ run c rest, test c = true → k run (c :: rest) = none) :
    greedy test least cs k = k (cs.takeWhile test) (cs.dropWhile test) := by
  induction cs generalizing least k with
  | nil =>
    have hleast : least = 0 := Nat.le_zero.1 h
    exact if_pos hleast
  | cons c cs ih =>
    unfold greedy
    by_cases hc : test c = true
    · rw [List.takeWhile_cons_of_pos hc, List.dropWhile_cons_of_pos hc] at *
      rw [List.length_cons] at h
      have hlonger : greedy test (least - 1) cs (fun run rest => k (c :: run) rest) =
          k (c :: cs.takeWhile test) (cs.dropWhile test) := by
        apply ih
        · omega
        · exact hk.imp_right fun hnone run => hnone (c :: run)
      rw [if_pos hc, hlonger]
      -- the longest run comes first, and the run without `c` is only looked at if it fails
      rcases hk with ⟨b, hb⟩ | hnone
      · rw [hb, Option.some_or]
      · rw [hnone [] c cs hc, ite_self, Option.or_none]
    · rw [List.takeWhile_cons_of_neg hc] at h ⊢
      rw [List.dropWhile_cons_of_neg hc, if_neg hc, Option.none_or]
      exact if_pos (Nat.le_zero.1 h)

end Greedy

end Pattern

end CompilerFuzz.Text
