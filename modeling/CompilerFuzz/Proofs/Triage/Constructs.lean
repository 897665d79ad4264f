/-
  CompilerFuzz.Proofs.Triage.Constructs

  Which number a line of the tagged dialect names. The digits are those behind the first mark
  that has any, as many as there are (`Tagged.FirstNumber`); they make a number if all of them
  are ASCII digits and their value is a word of 64 bits. A later mark does not make up for it.

  The search pattern of the dialect (`Tagged.pattern`) captures these digits: nothing has to
  match behind them, so the longest run is taken.
-/
import Mathlib.Data.List.TakeWhile
import CompilerFuzz.Proofs.Triage.Printed
import CompilerFuzz.Text.Pattern

namespace CompilerFuzz.Triage.Tagged

open CompilerFuzz.Text

/-- A mark with a digit behind it stands at the front. -/
def Numbered (cs : List Char) : Prop :=
  ∃ d rest, isDecimalDigit d = true ∧ cs = constructMark ++ d :: rest

/-- `ds` is the whole run of digits at the front of `cs`, and there is at least one. -/
structure DigitRun (ds cs : List Char) : Prop where
  ne_nil : ds ≠ []
  digits : ∀ d ∈ ds, isDecimalDigit d = true
  stops : ∃ rest, cs = ds ++ rest ∧ ∀ c ∈ rest.head?, isDecimalDigit c = false

/-- The least position where a mark with digits stands is `i`, and `ds` is the whole run of
    digits behind that mark. -/
structure FirstNumber (cs : List Char) (i : Nat) (ds : List Char) : Prop where
  mark : ∃ rest, cs.drop i = constructMark ++ rest ∧ DigitRun ds rest
  first : ∀ j < i, ¬ Numbered (cs.drop j)

/-- Digits that make a number of 64 bits. -/
def IsWord (ds : List Char) : Prop :=
  ds.all Char.isDigit = true ∧ numeralValue ds ≤ maxWord64

theorem readNumeral?_eq_some_iff {ds : List Char} {n : Nat} :
    readNumeral? maxWord64 ds = some n ↔ ds ≠ [] ∧ IsWord ds ∧ numeralValue ds = n := by
  unfold readNumeral? IsWord
  simp [and_assoc]

theorem takeWhile_eq_iff_digitRun {ds cs : List Char} (hne : ds ≠ []) :
    cs.takeWhile isDecimalDigit = ds ↔ DigitRun ds cs := by
  constructor
  · rintro rfl
    refine ⟨hne, fun d hd => List.mem_takeWhile_imp hd,
      cs.dropWhile isDecimalDigit, List.takeWhile_append_dropWhile.symm, ?_⟩
    exact eq_false_of_mem_head?_dropWhile
  · rintro ⟨-, hdigits, rest, rfl, hstops⟩
    exact takeWhile_append_stop hdigits hstops

theorem constructHere?_eq_some_iff {cs ds : List Char} :
    constructHere? cs = some ds ↔ ∃ rest, cs = constructMark ++ rest ∧ DigitRun ds rest := by
  unfold constructHere?
  constructor
  · intro h
    split at h
    · cases h
    · next rest hrest =>
      refine ⟨rest, after?_eq_some_iff.1 hrest, ?_⟩
      split at h
      · cases h
      · next hrun =>
        cases h
        exact (takeWhile_eq_iff_digitRun hrun).1 rfl
  · rintro ⟨rest, rfl, hrun⟩
    rw [after?_eq_some_iff.2 rfl]
    dsimp only
    rw [(takeWhile_eq_iff_digitRun hrun.ne_nil).2 hrun]
    obtain ⟨d, ds, rfl⟩ := List.exists_cons_of_ne_nil hrun.ne_nil
    rfl

/-- Where no mark with digits stands the pattern does not match. -/
theorem constructHere?_eq_none_iff {cs : List Char} : constructHere? cs = none ↔ ¬ Numbered cs := by
  constructor
  · rintro h ⟨d, rest, hd, rfl⟩
    have hrun : DigitRun ((d :: rest).takeWhile isDecimalDigit) (d :: rest) := by
      refine (takeWhile_eq_iff_digitRun ?_).1 rfl
      rw [List.takeWhile_cons_of_pos hd]
      exact List.cons_ne_nil _ _
    rw [constructHere?_eq_some_iff.2 ⟨_, rfl, hrun⟩] at h
    cases h
  · intro h
    refine Option.eq_none_iff_forall_ne_some.2 fun ds hds => h ?_
    obtain ⟨rest, rfl, hne, hdigits, tail, rfl, -⟩ := constructHere?_eq_some_iff.1 hds
    obtain ⟨d, ds, rfl⟩ := List.exists_cons_of_ne_nil hne
    exact ⟨d, ds ++ tail, hdigits d List.mem_cons_self, rfl⟩

theorem leftmost?_constructHere?_eq_some_iff {cs ds : List Char} :
    leftmost? constructHere? cs = some ds ↔ ∃ i, FirstNumber cs i ds := by
  rw [leftmost?_eq_some_iff_drop]
  simp only [constructHere?_eq_none_iff, constructHere?_eq_some_iff]
  constructor
  · rintro ⟨i, hmark, hfirst⟩
    exact ⟨i, hmark, hfirst⟩
  · rintro ⟨i, hmark, hfirst⟩
    exact ⟨i, hmark, hfirst⟩

/-- A line names the number that its first digits make, and none if they make none. -/
theorem construct?_eq_some_iff {cs : List Char} {n : Nat} :
    construct? cs = some n ↔ ∃ i ds, FirstNumber cs i ds ∧ IsWord ds ∧ numeralValue ds = n := by
  unfold construct?
  cases hfound : leftmost? constructHere? cs with
  | none =>
    refine iff_of_false nofun ?_
    rintro ⟨i, ds, hfirst, -⟩
    rw [leftmost?_constructHere?_eq_some_iff.2 ⟨i, hfirst⟩] at hfound
    cases hfound
  | some ds =>
    obtain ⟨i, hfirst⟩ := leftmost?_constructHere?_eq_some_iff.1 hfound
    obtain ⟨_, -, hrun⟩ := hfirst.mark
    show readNumeral? maxWord64 ds = some n ↔ _
    rw [readNumeral?_eq_some_iff]
    constructor
    · rintro ⟨-, hword, hvalue⟩
      exact ⟨i, ds, hfirst, hword, hvalue⟩
    · rintro ⟨j, ds', hfirst', hword, hvalue⟩
      -- the line has one first number only
      rw [leftmost?_constructHere?_eq_some_iff.2 ⟨j, hfirst'⟩] at hfound
      obtain rfl := Option.some.inj hfound
      exact ⟨hrun.ne_nil, hword, hvalue⟩

theorem construct?_eq_none_iff {cs : List Char} :
    construct? cs = none ↔ ¬ ∃ i ds, FirstNumber cs i ds ∧ IsWord ds := by
  rw [Option.eq_none_iff_forall_ne_some]
  constructor
  · rintro h ⟨i, ds, hfirst, hword⟩
    exact h _ (construct?_eq_some_iff.2 ⟨i, ds, hfirst, hword, rfl⟩)
  · intro h n hn
    obtain ⟨i, ds, hfirst, hword, -⟩ := construct?_eq_some_iff.1 hn
    exact h ⟨i, ds, hfirst, hword⟩

/-- Only a fail line is rejected, and only if its first digits make no number. -/
theorem classify_eq_error_iff {text : String} {e : TriageError} :
    classify text = .error e ↔ e = .malformedFailLine text ∧ (∃ p, text = line .fail p) ∧
      ¬ ∃ i ds, FirstNumber text.toList i ds ∧ IsWord ds := by
  rw [← construct?_eq_none_iff]
  constructor
  · intro h
    unfold classify at h
    dsimp only at h
    -- the lines of the other tags are never rejected, nor are those without a tag
    split at h
    · cases h
    · cases h
    · next rest _ _ hfail =>
      split at h
      · cases h
      · next hnone =>
        cases h
        exact ⟨rfl, ⟨_, eq_line_of_after? hfail⟩, hnone⟩
    · cases h
  · rintro ⟨rfl, ⟨p, rfl⟩, hnone⟩
    unfold classify
    dsimp only
    rw [after?_tag_line, after?_tag_line, after?_tag_line, hnone]
    rfl

/-- A verdict gone wrong: a fail line whose first digits make no number. -/
def Malformed (text : String) : Prop :=
  (∃ p, text = line .fail p) ∧ ¬ ∃ i ds, FirstNumber text.toList i ds ∧ IsWord ds

theorem exists_classify_eq_error_iff {text : String} :
    (∃ e, classify text = .error e) ↔ Malformed text := by
  simp only [classify_eq_error_iff]
  constructor
  · rintro ⟨e, -, hline, hnumber⟩
    exact ⟨hline, hnumber⟩
  · rintro ⟨hline, hnumber⟩
    exact ⟨_, rfl, hline, hnumber⟩

/-! ## The first number of a fail line -/

/-- There is a first number wherever a mark has a digit behind it. -/
theorem exists_firstNumber_iff {cs : List Char} :
    (∃ i ds, FirstNumber cs i ds) ↔ ∃ i, Numbered (cs.drop i) := by
  constructor
  · rintro ⟨i, ds, ⟨rest, hcs, hne, hdigits, tail, rfl, -⟩, -⟩
    obtain ⟨d, ds, rfl⟩ := List.exists_cons_of_ne_nil hne
    exact ⟨i, d, ds ++ tail, hdigits d List.mem_cons_self, hcs⟩
  · rintro ⟨i, hi⟩
    cases hfound : leftmost? constructHere? cs with
    | none =>
      have hnone := leftmost?_eq_none_iff_drop.1 hfound i
      exact absurd hi (constructHere?_eq_none_iff.1 hnone)
    | some ds =>
      obtain ⟨j, hfirst⟩ := leftmost?_constructHere?_eq_some_iff.1 hfound
      exact ⟨j, ds, hfirst⟩

/-- The pattern of a construct: its mark, and a captured number of any script. -/
def pattern : Pattern :=
  .seq (.word constructMark) (.group (.many 1 isDecimalDigit))

theorem capturesHere?_pattern (cs : List Char) :
    pattern.capturesHere? cs = (constructHere? cs).map ([·]) := by
  unfold Pattern.capturesHere? pattern constructHere?
  simp only [Pattern.first?, Pattern.Way.append, Pattern.Way.capture, List.nil_append]
  cases after? constructMark cs with
  | none => rfl
  | some rest =>
    rw [Option.bind_some]
    dsimp only
    cases hrun : rest.takeWhile isDecimalDigit with
    | nil =>
      apply Pattern.greedy_eq_none
      rw [hrun]
      exact Nat.one_pos
    | cons d ds =>
      have hone : 1 ≤ (rest.takeWhile isDecimalDigit).length := by
        rw [hrun]
        exact Nat.succ_pos _
      -- nothing has to match behind the digits, so the longest run is the first to succeed
      rw [Pattern.greedy_eq_longest hone (.inl ⟨_, rfl⟩), hrun]
      rfl

theorem captures?_pattern (cs : List Char) :
    pattern.captures? cs = (leftmost? constructHere? cs).map ([·]) :=
  Pattern.captures?_eq_map capturesHere?_pattern cs

theorem captures?_eq_some_iff {cs : List Char} {captured : List (List Char)} :
    pattern.captures? cs = some captured ↔ ∃ i ds, FirstNumber cs i ds ∧ captured = [ds] := by
  rw [captures?_pattern, Option.map_eq_some_iff]
  simp only [leftmost?_constructHere?_eq_some_iff]
  constructor
  · rintro ⟨ds, ⟨i, hfirst⟩, rfl⟩
    exact ⟨i, ds, hfirst, rfl⟩
  · rintro ⟨i, ds, hfirst, rfl⟩
    exact ⟨ds, ⟨i, hfirst⟩, rfl⟩

theorem append_eq_line (p : String) : "fail: " ++ p = line .fail p := by
  rw [← String.toList_inj, String.toList_append, toList_line]
  rfl

theorem classify_line_eq_ok_iff {p : String} {v : Option Verdict} :
    classify (line .fail p) = .ok v ↔ ∃ i ds, FirstNumber (line .fail p).toList i ds ∧ IsWord ds ∧
      v = some ⟨.fail, .number (numeralValue ds), p⟩ := by
  constructor
  · intro h
    unfold classify at h
    dsimp only at h
    rw [after?_tag_line, after?_tag_line, after?_tag_line] at h
    cases hn : construct? (line .fail p).toList with
    | none =>
      rw [hn] at h
      cases h
    | some n =>
      obtain ⟨i, ds, hfirst, hword, rfl⟩ := construct?_eq_some_iff.1 hn
      rw [hn] at h
      cases h
      exact ⟨i, ds, hfirst, hword, by rw [String.ofList_toList]⟩
  · rintro ⟨i, ds, hfirst, hword, rfl⟩
    have hn : construct? (line .fail p).toList = some (numeralValue ds) :=
      construct?_eq_some_iff.2 ⟨i, ds, hfirst, hword, rfl⟩
    exact classify_of_keyed (.fail hn)

theorem classify_line_eq_error_iff {p : String} {e : TriageError} :
    classify (line .fail p) = .error e ↔ e = .malformedFailLine (line .fail p) ∧
      ∀ i ds, FirstNumber (line .fail p).toList i ds → ¬ IsWord ds := by
  rw [classify_eq_error_iff]
  constructor
  · rintro ⟨rfl, -, hnone⟩
    exact ⟨rfl, fun i ds hfirst hword => hnone ⟨i, ds, hfirst, hword⟩⟩
  · rintro ⟨rfl, hnone⟩
    refine ⟨rfl, ⟨p, rfl⟩, ?_⟩
    rintro ⟨i, ds, hfirst, hword⟩
    exact hnone i ds hfirst hword

/-- Which number a fail line stands under. It is that of the digits behind the first mark that
    has any, if these make a number of 64 bits; else the line is rejected with its whole text,
    and no later mark is looked at. Marks without a digit are passed over. The digits are those
    that the search pattern captures. -/
theorem classify_failLine (p : String) :
    (∀ v, classify ("fail: " ++ p) = .ok v ↔
      ∃ i ds, FirstNumber ("fail: " ++ p).toList i ds ∧ IsWord ds ∧
        v = some ⟨.fail, .number (numeralValue ds), p⟩) ∧
    (∀ e, classify ("fail: " ++ p) = .error e ↔ e = .malformedFailLine ("fail: " ++ p) ∧
      ∀ i ds, FirstNumber ("fail: " ++ p).toList i ds → ¬ IsWord ds) ∧
    (∀ captured, pattern.captures? ("fail: " ++ p).toList = some captured ↔
      ∃ i ds, FirstNumber ("fail: " ++ p).toList i ds ∧ captured = [ds]) ∧
    ((∃ i ds, FirstNumber ("fail: " ++ p).toList i ds) ↔
      ∃ i, Numbered (("fail: " ++ p).toList.drop i)) := by
  rw [append_eq_line]
  exact ⟨fun _ => classify_line_eq_ok_iff, fun _ => classify_line_eq_error_iff,
    fun _ => captures?_eq_some_iff, exists_firstNumber_iff⟩

/-- The first number has a digit of another script, and a mark without digits comes before. -/
example : classify "fail: a Construct: x Construct: 1٣ Construct: 7" =
      .error (.malformedFailLine "fail: a Construct: x Construct: 1٣ Construct: 7") ∧
    classify "fail: Construct: Construct: 007 Construct: 8" =
      .ok (some ⟨.fail, .number 7, "Construct: Construct: 007 Construct: 8"⟩) := by
  decide +kernel

end CompilerFuzz.Triage.Tagged
