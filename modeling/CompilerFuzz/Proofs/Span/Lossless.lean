/-
  CompilerFuzz.Proofs.Span.Lossless

  A written span is read back as it was. Each count is read together with its unit, whatever
  follows it (`term?_writeCount`), and adds to the seconds or to the nanoseconds alone. The
  counts of a span add up to it (`secsIn_writtenCounts`, `nanosIn_writtenCounts`), so
  no sum on the way is larger than the span itself: nothing leaves the range of a word, and no
  nanoseconds carry into the seconds.
-/
import CompilerFuzz.Span.Written
import CompilerFuzz.Text.Scan

namespace CompilerFuzz

open CompilerFuzz.Text

/-! ## Units -/

/-- The name under which a unit is written is one of its names. -/
theorem TimeUnit.ofName?_countName (n : Nat) (u : TimeUnit) :
    ofName? (Span.countName n u).toList = some u := by
  have hday : ofName? "day".toList = some .day ∧ ofName? "days".toList = some .day := by
    decide +kernel
  have hweek : ofName? "week".toList = some .week ∧ ofName? "weeks".toList = some .week := by
    decide +kernel
  have hmonth : ofName? "month".toList = some .month ∧ ofName? "months".toList = some .month := by
    decide +kernel
  have hyear : ofName? "year".toList = some .year ∧ ofName? "years".toList = some .year := by
    decide +kernel
  by_cases hn : n = 1 <;> cases u <;> simp only [Span.countName, hn, if_true, if_false, hday,
    hweek, hmonth, hyear] <;> decide +kernel

/-- A unit is some seconds or some nanoseconds, and not both. -/
theorem TimeUnit.size_cases (u : TimeUnit) :
    1 ≤ u.size.1 ∧ u.size.2 = 0 ∨ u.size.1 = 0 ∧ 1 ≤ u.size.2 := by
  cases u <;> decide

namespace Span

/-- The name of a unit is not empty, has letters only, and nothing in it is part of a
    number. -/
theorem countName_chars (n : Nat) (u : TimeUnit) : (countName n u).toList ≠ [] ∧
    ∀ c ∈ (countName n u).toList,
      isUnitChar c = true ∧ c.isDigit = false ∧ isBlank c = false ∧ c ≠ '.' := by
  have hall : (countName n u).toList ≠ [] ∧ (countName n u).toList.all (fun c =>
      isUnitChar c && !c.isDigit && !isBlank c && c != '.') = true := by
    by_cases hn : n = 1 <;> cases u <;> simp only [countName, hn, if_true, if_false] <;>
      decide +kernel
  refine ⟨hall.1, fun c hc => ?_⟩
  have hchar := List.all_eq_true.1 hall.2 c hc
  simp only [Bool.and_eq_true, Bool.not_eq_true', bne_iff_ne] at hchar
  exact ⟨hchar.1.1.1, hchar.1.1.2, hchar.1.2, hchar.2⟩

/-! ## One count -/

/-- What may stand behind a count: nothing, or a blank and more. -/
def Parted (tail : List Char) : Prop :=
  ∀ c ∈ tail.head?, c = ' '

theorem spanDigits_append {ds : List Char} (hds : ds.all Char.isDigit = true) {c : Char}
    (hdigit : c.isDigit = false) (hblank : isBlank c = false) (rest : List Char) :
    spanDigits (ds ++ c :: rest) = (ds, c :: rest) := by
  induction ds with
  | nil => simp [spanDigits, hdigit, hblank]
  | cons d ds ih =>
    rw [List.all_cons, Bool.and_eq_true] at hds
    simp [spanDigits, hds.1, ih hds.2]

theorem unitName?_append (n : Nat) (f : Option Fraction) {name tail : List Char}
    (hname : ∀ c ∈ name, isUnitChar c = true) (htail : Parted tail) :
    unitName? n f (name ++ tail) = some ⟨n, f, name, tail.tail⟩ := by
  have hstop : ∀ c ∈ tail.head?, isUnitChar c = false := fun c hc => by
    rw [htail c hc]
    decide
  rw [unitName?, takeWhile_append_stop hname hstop, dropWhile_append_stop hname hstop]
  cases tail with
  | nil => rfl
  | cons c rest =>
    obtain rfl : c = ' ' := htail c rfl
    rfl

/-- A count is read with its unit, and a blank behind it goes with it. -/
theorem term?_writeCount {c : Nat × TimeUnit} (hc : c.1 ≤ maxWord64) {tail : List Char}
    (htail : Parted tail) :
    ∃ d cs, writeCount c ++ tail = d :: cs ∧ d.isDigit = true ∧
      term? d cs = some ⟨c.1, none, (countName c.1 c.2).toList, tail.tail⟩ := by
  obtain ⟨n, u⟩ := c
  obtain ⟨hne, hchars⟩ := countName_chars n u
  obtain ⟨d, ds, hnum, hd, hds⟩ := numeral_front n
  have hvalue := numeralValue_numeral n
  have hread := unitName?_append n none (fun c hm => (hchars c hm).1) htail
  unfold writeCount
  cases hname : (countName n u).toList with
  | nil => exact absurd hname hne
  | cons x xs =>
    rw [hnum] at hvalue
    rw [hname] at hread hchars
    obtain ⟨-, hdigit, hblank, hpoint⟩ := hchars x List.mem_cons_self
    -- the name ends the digits, as it starts with a letter
    have hspan := spanDigits_append hds hdigit hblank (xs ++ tail)
    have hle : n ≤ maxWord64 := hc
    refine ⟨d, ds ++ x :: (xs ++ tail), by simp [hnum], hd, ?_⟩
    simp only [term?, hspan, hvalue, if_pos hle]
    split
    · next heq => exact absurd (List.cons.inj heq).1 hpoint
    · exact hread

/-- A sum that stays in range is added without a carry. -/
theorem addWhole?_eq {s : Span} {n : Nat} {u : TimeUnit} (hsecs : s.secs + n * u.size.1 ≤ maxWord64)
    (hnanos : s.nanos + n * u.size.2 < nanosPerSecond) :
    s.addWhole? n u = some ⟨s.secs + n * u.size.1, s.nanos + n * u.size.2, hsecs, hnanos⟩ := by
  have hword : nanosPerSecond ≤ maxWord64 := by decide
  have hparts : n * u.size.1 ≤ maxWord64 ∧ n * u.size.2 ≤ maxWord64 := by omega
  have hsum : s.nanos + n * u.size.2 ≤ maxWord64 := by omega
  simp only [addWhole?, hparts, and_self, if_true, add?, hsum, Nat.div_eq_of_lt hnanos,
    Nat.mod_eq_of_lt hnanos, Nat.add_zero]
  exact ofParts?_self ⟨_, _, hsecs, hnanos⟩

/-- One step of the reader: a term, its sum, and the terms behind it. -/
theorem readTerms?_eq (s : Span) (cs : List Char) :
    readTerms? s cs = match trimStart cs with
      | [] => some s
      | d :: rest =>
        if d.isDigit then
          (term? d rest).bind fun t =>
            (s.addTerm? t.count t.fraction t.name).bind fun s => readTerms? s t.rest
        else none := by
  rw [readTerms?]
  split
  · next heq => simp only [heq]
  · next heq =>
    simp only [heq]
    split
    · split
      · next hterm => simp [hterm]
      · next hterm =>
        rw [hterm, Option.bind_some]
        split
        · next hadd => simp [hadd]
        · next hadd => simp [hadd]
    · rfl

/-- Reading goes on behind a count with the count added. -/
theorem readTerms?_writeCount {s : Span} {c : Nat × TimeUnit} {tail : List Char}
    (hc : c.1 ≤ maxWord64) (htail : Parted tail) :
    readTerms? s (writeCount c ++ tail) =
      (s.addWhole? c.1 c.2).bind fun s => readTerms? s tail.tail := by
  obtain ⟨d, cs, hcs, hdigit, hterm⟩ := term?_writeCount hc htail
  have htrim : trimStart (d :: cs) = d :: cs := by
    simp [trimStart, isBlank_eq_false_of_isDigit hdigit]
  rw [hcs, readTerms?_eq, htrim]
  simp only [hdigit, if_true, hterm, Option.bind_some, addTerm?, TimeUnit.ofName?_countName]
  cases s.addWhole? c.1 c.2 <;> rfl

/-! ## Several counts -/

/-- The counts as they are written, with a blank between them. -/
def writeCounts (cs : List (Nat × TimeUnit)) : List Char :=
  ((cs.map writeCount).intersperse [' ']).flatten

/-- What several counts come to, for given sizes of the units. -/
def total (size : TimeUnit → Nat) : List (Nat × TimeUnit) → Nat
  | [] => 0
  | c :: cs => c.1 * size c.2 + total size cs

/-- The seconds in several counts. -/
def secsIn (cs : List (Nat × TimeUnit)) : Nat :=
  total (fun u => u.size.1) cs

/-- The nanoseconds in several counts. -/
def nanosIn (cs : List (Nat × TimeUnit)) : Nat :=
  total (fun u => u.size.2) cs

@[simp] theorem secsIn_cons (c : Nat × TimeUnit) (cs : List (Nat × TimeUnit)) :
    secsIn (c :: cs) = c.1 * c.2.size.1 + secsIn cs := rfl

@[simp] theorem nanosIn_cons (c : Nat × TimeUnit) (cs : List (Nat × TimeUnit)) :
    nanosIn (c :: cs) = c.1 * c.2.size.2 + nanosIn cs := rfl

theorem writeCounts_cons (c : Nat × TimeUnit) (cs : List (Nat × TimeUnit)) :
    ∃ tail, writeCounts (c :: cs) = writeCount c ++ tail ∧ Parted tail ∧
      tail.tail = writeCounts cs := by
  cases cs with
  | nil => exact ⟨[], by simp [writeCounts], by simp [Parted], rfl⟩
  | cons d ds => exact ⟨' ' :: writeCounts (d :: ds), by simp [writeCounts], by simp [Parted], rfl⟩

/-- A count is no larger than the seconds or the nanoseconds in it. -/
theorem count_le (c : Nat × TimeUnit) : c.1 ≤ max (c.1 * c.2.size.1) (c.1 * c.2.size.2) := by
  rcases c.2.size_cases with ⟨hsize, -⟩ | ⟨-, hsize⟩
  · exact Nat.le_trans (Nat.le_mul_of_pos_right _ hsize) (Nat.le_max_left ..)
  · exact Nat.le_trans (Nat.le_mul_of_pos_right _ hsize) (Nat.le_max_right ..)

/-- Counts whose sum with `s` is a span are added to it, whatever their order. -/
theorem readTerms?_writeCounts {cs : List (Nat × TimeUnit)} {s : Span}
    (hsecs : s.secs + secsIn cs ≤ maxWord64)
    (hnanos : s.nanos + nanosIn cs < nanosPerSecond) :
    readTerms? s (writeCounts cs) =
      some ⟨s.secs + secsIn cs, s.nanos + nanosIn cs, hsecs, hnanos⟩ := by
  induction cs generalizing s with
  | nil =>
    rw [readTerms?]
    rfl
  | cons c cs ih =>
    have hword : nanosPerSecond ≤ maxWord64 := by decide
    have hle := count_le c
    -- The sums only grow on the way, so the bounds on the last ones hold from the first step on.
    rw [secsIn_cons] at hsecs
    rw [nanosIn_cons] at hnanos
    obtain ⟨tail, htail, hparted, hrest⟩ := writeCounts_cons c cs
    have hsecs' : s.secs + c.1 * c.2.size.1 ≤ maxWord64 := by omega
    have hnanos' : s.nanos + c.1 * c.2.size.2 < nanosPerSecond := by omega
    rw [htail, readTerms?_writeCount (by omega) hparted, addWhole?_eq hsecs' hnanos', hrest,
      Option.bind_some, ih (by simpa only [Nat.add_assoc] using hsecs)
        (by simpa only [Nat.add_assoc] using hnanos)]
    simp only [secsIn_cons, nanosIn_cons, Nat.add_assoc]

/-- Written counts start with a digit, and more follows it. -/
theorem writeCounts_front {cs : List (Nat × TimeUnit)} (h : cs ≠ []) :
    ∃ d e rest, writeCounts cs = d :: e :: rest ∧ d.isDigit = true := by
  cases cs with
  | nil => exact absurd rfl h
  | cons c cs =>
    obtain ⟨tail, htail, -⟩ := writeCounts_cons c cs
    obtain ⟨d, ds, hnum, hdigit, -⟩ := numeral_front c.1
    rw [htail, writeCount, hnum]
    cases hrest : ds ++ (countName c.1 c.2).toList ++ tail with
    | nil =>
      have hname := (List.append_eq_nil_iff.1 (List.append_eq_nil_iff.1 hrest).1).2
      exact absurd hname (countName_chars c.1 c.2).1
    | cons e rest => exact ⟨d, e, rest, congrArg (d :: ·) hrest, hdigit⟩

/-! ## The counts of a span -/

/-- The counts that are not zero. -/
def nonzeroCounts (s : Span) : List (Nat × TimeUnit) :=
  s.counts.filter fun c => c.1 ≠ 0

/-- The counts that are written; an empty span is written as no seconds. -/
def writtenCounts (s : Span) : List (Nat × TimeUnit) :=
  if s.nonzeroCounts = [] then [(0, .second)] else s.nonzeroCounts

theorem writtenCounts_ne_nil (s : Span) : s.writtenCounts ≠ [] := by
  unfold writtenCounts
  split
  · exact List.cons_ne_nil _ _
  · assumption

theorem write_eq (s : Span) : s.write = writeCounts s.writtenCounts := by
  unfold write writtenCounts nonzeroCounts
  cases s.counts.filter fun c => c.1 ≠ 0 with
  | nil =>
    have hzero : numeral 0 = ['0'] := by rw [numeral]; rfl
    simp [writeCounts, writeCount, hzero, countName]
  | cons c cs => rw [if_neg (List.cons_ne_nil c cs)]; rfl

/-- Counts that are zero add nothing. -/
theorem total_filter (size : TimeUnit → Nat) (cs : List (Nat × TimeUnit)) :
    total size (cs.filter fun c => c.1 ≠ 0) = total size cs := by
  induction cs with
  | nil => rfl
  | cons c cs ih => by_cases hc : c.1 = 0 <;> simpa [hc, total] using ih

theorem total_writtenCounts (size : TimeUnit → Nat) (s : Span) :
    total size s.writtenCounts = total size s.counts := by
  rw [← total_filter size s.counts]
  unfold writtenCounts
  split
  · next hnil =>
    unfold nonzeroCounts at hnil
    rw [hnil]
    simp [total]
  · rfl

/-- What the counts come to, for any sizes of the units. With the sizes themselves in their place
    this would be checked by counting up to them. -/
theorem total_counts (size : TimeUnit → Nat) (s : Span) :
    total size s.counts =
      s.secs / 31557600 * size .year + (s.secs % 31557600 / 2630016 * size .month +
        (s.secs % 31557600 % 2630016 / 86400 * size .day +
          (s.secs % 31557600 % 2630016 % 86400 / 3600 * size .hour +
            (s.secs % 31557600 % 2630016 % 86400 % 3600 / 60 * size .minute +
              (s.secs % 31557600 % 2630016 % 86400 % 60 * size .second +
                (s.nanos / 1000000 * size .millisecond +
                  (s.nanos / 1000 % 1000 * size .microsecond +
                    (s.nanos % 1000 * size .nanosecond + 0)))))))) :=
  rfl

theorem secsIn_writtenCounts (s : Span) : secsIn s.writtenCounts = s.secs := by
  unfold secsIn
  rw [total_writtenCounts, total_counts]
  simp only [TimeUnit.size]
  omega

theorem nanosIn_writtenCounts (s : Span) : nanosIn s.writtenCounts = s.nanos := by
  unfold nanosIn
  rw [total_writtenCounts, total_counts]
  simp only [TimeUnit.size]
  omega

/-- Every span is read back from its written form. -/
theorem read?_write (s : Span) : read? s.write = some s := by
  have hsecs := secsIn_writtenCounts s
  have hnanos := nanosIn_writtenCounts s
  obtain ⟨d, e, rest, hfront, hdigit⟩ := writeCounts_front s.writtenCounts_ne_nil
  have hread : readTerms? zero (writeCounts s.writtenCounts) = some s := by
    rw [readTerms?_writeCounts (by simpa [zero, hsecs] using s.secs_le)
      (by simpa [zero, hnanos] using s.nanos_lt)]
    simp [zero, hsecs, hnanos]
  have htrim : trimStart (d :: e :: rest) ≠ [] := by
    simp [trimStart, isBlank_eq_false_of_isDigit hdigit]
  rw [write_eq, read?, hfront, if_neg (by simp), if_neg htrim, ← hfront, hread]

end Span

end CompilerFuzz
