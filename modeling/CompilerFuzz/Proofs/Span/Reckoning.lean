/-
  CompilerFuzz.Proofs.Span.Reckoning

  The numbers that come up while a span is read.

    * `reckon?` reads a text the way `Span.read?` does, but with numbers of any size, and it
      writes down every product and every sum on its way: those of the digits, of the counts
      and fractions with the sizes of their units, and of the seconds and nanoseconds.
    * A text is read as a span exactly if it can be reckoned and no number on that list is
      too large for a word (`read?_eq_some_iff`). Step by step: a term (`term?_eq_some_iff`),
      its sum (`Gives.addTerm`), and the terms one after the other (`Gives.readTerms`).
    * The text of a span gives the span, so none of its numbers is too large
      (`text_lossless`).
-/
import CompilerFuzz.Proofs.Settings.RoundTrip

namespace CompilerFuzz.Span

open CompilerFuzz.Text CompilerFuzz.Toml

/-! ## Reading with numbers of any size -/

/-- Seconds and nanoseconds of any size, and the products and sums on the way to them. -/
structure Reckoning where
  secs : Nat
  nanos : Nat
  numbers : List Nat

/-- Every one of the numbers is one of 64 bits. -/
def Fit (numbers : List Nat) : Prop := ∀ n ∈ numbers, n ≤ maxWord64

/-- The products and sums of a number that goes on behind `n` with the given digits. -/
def digitNumbers (n : Nat) : List Char → List Nat
  | [] => []
  | d :: ds => n * 10 :: (n * 10 + digitValue d) :: digitNumbers (n * 10 + digitValue d) ds

/-- The products on the way to the `k`-th power of ten. -/
def powerNumbers : Nat → List Nat
  | 0 => []
  | k + 1 => powerNumbers k ++ [powerOfTen k * 10]

/-- The fraction with the given digits, and its numbers. -/
def reckonFraction? (digits : List Char) : Option (Fraction × List Nat) :=
  if digits = [] then none
  else some (⟨numeralValue digits, powerOfTen digits.length⟩,
    digitNumbers 0 digits ++ powerNumbers digits.length)

/-- Reads the term that starts with the digit `d`, and its numbers. -/
def reckonTerm? (d : Char) (cs : List Char) : Option (Term × List Nat) :=
  let (ds, rest) := spanDigits cs
  let count := numeralValue (d :: ds)
  let numbers := digitNumbers 0 (d :: ds)
  match rest with
  | '.' :: rest =>
    let (fs, rest) := spanDigits rest
    match reckonFraction? fs with
    | none => none
    | some (f, more) => (unitName? count (some f) rest).map fun t => (t, numbers ++ more)
  | rest => (unitName? count none rest).map fun t => (t, numbers)

namespace Reckoning

/-- Writes down more numbers. -/
def note (r : Reckoning) (numbers : List Nat) : Reckoning :=
  { r with numbers := r.numbers ++ numbers }

/-- Adds seconds and nanoseconds, carrying whole seconds. -/
def add (r : Reckoning) (secs nanos : Nat) : Reckoning :=
  let sum := r.nanos + nanos
  let carried := secs + sum / nanosPerSecond
  ⟨r.secs + carried, sum % nanosPerSecond, r.numbers ++ [sum, carried, r.secs + carried]⟩

/-- Adds `n` times the unit. -/
def addWhole (r : Reckoning) (n : Nat) (u : TimeUnit) : Reckoning :=
  let (secs, nanos) := u.size
  (r.note [n * secs, n * nanos]).add (n * secs) (n * nanos)

/-- Adds a fraction of the unit, if it comes out even. -/
def addFraction? (r : Reckoning) (f : Fraction) (u : TimeUnit) : Option Reckoning :=
  match u.fractionSize? with
  | none => none
  | some (secs, nanos) =>
    let secs := f.numerator * secs
    let nanos := f.numerator * nanos
    if secs % f.denominator = 0 ∧ nanos % f.denominator = 0 then
      some ((r.note [secs, nanos]).add (secs / f.denominator) (nanos / f.denominator))
    else none

/-- Adds one term: a count, perhaps a fraction, and the name of a unit. -/
def addTerm? (r : Reckoning) (n : Nat) (f : Option Fraction) (name : List Char) :
    Option Reckoning :=
  match TimeUnit.ofName? name with
  | none => none
  | some u =>
    match f with
    | none => some (r.addWhole n u)
    | some f => (r.addWhole n u).addFraction? f u

end Reckoning

theorem length_rest_of_reckonTerm? {d : Char} {cs : List Char} {t : Term} {numbers : List Nat}
    (h : reckonTerm? d cs = some (t, numbers)) : t.rest.length ≤ cs.length := by
  have hle := length_spanDigits_le cs
  unfold reckonTerm? at h
  split at h
  next ds rest hspan =>
  rw [hspan] at hle
  simp only at h
  split at h
  · next rest' =>
    have hle' := length_spanDigits_le rest'
    split at h
    · cases h
    · obtain ⟨t', hunit, heq⟩ := Option.map_eq_some_iff.1 h
      cases heq
      have hrest := length_rest_of_unitName? hunit
      have hpoint : rest'.length + 1 ≤ cs.length := hle
      omega
  · obtain ⟨t', hunit, heq⟩ := Option.map_eq_some_iff.1 h
    cases heq
    exact Nat.le_trans (length_rest_of_unitName? hunit) hle

/-- Reckons the remaining terms and adds them to `r`. -/
def reckonTerms? (r : Reckoning) (cs : List Char) : Option Reckoning :=
  match _h : trimStart cs with
  | [] => some r
  | d :: rest =>
    if d.isDigit then
      match _ht : reckonTerm? d rest with
      | none => none
      | some (t, numbers) =>
        match (r.note numbers).addTerm? t.count t.fraction t.name with
        | none => none
        | some r => reckonTerms? r t.rest
    else none
termination_by cs.length
decreasing_by
  have h₁ := length_dropWhile_le isBlank cs
  have h₂ := length_rest_of_reckonTerm? _ht
  simp only [trimStart] at _h
  rw [_h] at h₁
  exact Nat.lt_of_le_of_lt h₂ h₁

/-- Reckons a written span: `0`, or at least one term. -/
def reckon? (cs : List Char) : Option Reckoning :=
  if cs = ['0'] then some ⟨0, 0, []⟩
  else if trimStart cs = [] then none
  else reckonTerms? ⟨0, 0, []⟩ cs

/-! ## Numbers that fit -/

theorem fit_append_iff {numbers more : List Nat} :
    Fit (numbers ++ more) ↔ Fit numbers ∧ Fit more :=
  List.forall_mem_append

theorem fit_cons_iff {n : Nat} {numbers : List Nat} :
    Fit (n :: numbers) ↔ n ≤ maxWord64 ∧ Fit numbers :=
  List.forall_mem_cons

theorem fit_nil : Fit [] := List.forall_mem_nil _

/-- More digits never make a number smaller. -/
theorem le_foldl_digits (n : Nat) (ds : List Char) :
    n ≤ ds.foldl (fun n c => n * 10 + digitValue c) n := by
  induction ds generalizing n with
  | nil => exact Nat.le_refl n
  | cons d ds ih =>
    have hstep := ih (n * 10 + digitValue d)
    rw [List.foldl_cons]
    omega

/-- The numbers of a run of digits fit if the last of them does. -/
theorem fit_digitNumbers_iff {n : Nat} (hn : n ≤ maxWord64) (ds : List Char) :
    Fit (digitNumbers n ds) ↔ ds.foldl (fun n c => n * 10 + digitValue c) n ≤ maxWord64 := by
  induction ds generalizing n with
  | nil => exact iff_of_true fit_nil hn
  | cons d ds ih =>
    have hgrows := le_foldl_digits (n * 10 + digitValue d) ds
    rw [digitNumbers, fit_cons_iff, fit_cons_iff, List.foldl_cons]
    by_cases hstep : n * 10 + digitValue d ≤ maxWord64
    · have hproduct : n * 10 ≤ maxWord64 := by omega
      rw [ih hstep, and_iff_right hproduct, and_iff_right hstep]
    · -- the first sum is too large already, and the last one is no smaller
      refine iff_of_false (fun h => hstep h.2.1) fun h => hstep ?_
      exact Nat.le_trans hgrows h

theorem fit_powerNumbers_iff (k : Nat) : Fit (powerNumbers k) ↔ powerOfTen k ≤ maxWord64 := by
  induction k with
  | zero => exact iff_of_true fit_nil (by decide)
  | succ k ih =>
    rw [powerNumbers, fit_append_iff, ih, powerOfTen_succ, fit_cons_iff]
    constructor
    · intro h
      exact h.2.1
    · intro h
      exact ⟨by omega, h, fit_nil⟩

/-! ## One term -/

theorem fraction?_eq_some_iff {digits : List Char} {f : Fraction} :
    fraction? digits = some f ↔
      ∃ numbers, reckonFraction? digits = some (f, numbers) ∧ Fit numbers := by
  have hnumerator : Fit (digitNumbers 0 digits) ↔ numeralValue digits ≤ maxWord64 :=
    fit_digitNumbers_iff (Nat.zero_le _) digits
  have hdenominator := fit_powerNumbers_iff digits.length
  constructor
  · intro h
    obtain ⟨⟨hne, hnum, hden⟩, heq⟩ := Option.ite_none_right_eq_some.1 h
    cases heq
    refine ⟨digitNumbers 0 digits ++ powerNumbers digits.length, if_neg hne, ?_⟩
    exact fit_append_iff.2 ⟨hnumerator.2 hnum, hdenominator.2 hden⟩
  · rintro ⟨numbers, h, hfit⟩
    obtain ⟨hne, heq⟩ := Option.ite_none_left_eq_some.1 h
    cases heq
    obtain ⟨hnum, hden⟩ := fit_append_iff.1 hfit
    exact if_pos ⟨hne, hnumerator.1 hnum, hdenominator.1 hden⟩

/-- A term is what it is, whatever numbers are written beside it. -/
theorem exists_map_eq_some_iff {term : Option Term} {t : Term} {numbers : List Nat} :
    (∃ ns, (term.map fun t => (t, numbers)) = some (t, ns) ∧ Fit ns) ↔
      term = some t ∧ Fit numbers := by
  constructor
  · rintro ⟨ns, h, hfit⟩
    obtain ⟨t', hterm, heq⟩ := Option.map_eq_some_iff.1 h
    cases heq
    exact ⟨hterm, hfit⟩
  · rintro ⟨rfl, hfit⟩
    exact ⟨numbers, rfl, hfit⟩

theorem fraction?_eq_none {digits : List Char}
    (h : ∀ f numbers, reckonFraction? digits = some (f, numbers) → ¬ Fit numbers) :
    fraction? digits = none := by
  refine Option.eq_none_iff_forall_ne_some.2 fun f hf => ?_
  obtain ⟨numbers, hreckon, hfit⟩ := fraction?_eq_some_iff.1 hf
  exact h f numbers hreckon hfit

/-- A term is read if it can be reckoned with numbers that fit. -/
theorem term?_eq_some_iff {d : Char} {cs : List Char} {t : Term} :
    term? d cs = some t ↔ ∃ numbers, reckonTerm? d cs = some (t, numbers) ∧ Fit numbers := by
  obtain ⟨ds, rest, hspan⟩ : ∃ ds rest, spanDigits cs = (ds, rest) := ⟨_, _, rfl⟩
  have hcount : Fit (digitNumbers 0 (d :: ds)) ↔ numeralValue (d :: ds) ≤ maxWord64 :=
    fit_digitNumbers_iff (Nat.zero_le _) (d :: ds)
  by_cases hpoint : ∃ rest', rest = '.' :: rest'
  · obtain ⟨rest', rfl⟩ := hpoint
    simp only [term?, reckonTerm?, hspan]
    cases hreckon : reckonFraction? (spanDigits rest').1 with
    | none =>
      have hnone : fraction? (spanDigits rest').1 = none :=
        fraction?_eq_none fun f numbers h => by rw [hreckon] at h; cases h
      simp [hnone]
    | some p =>
      obtain ⟨f, more⟩ := p
      rw [exists_map_eq_some_iff, fit_append_iff, hcount, Option.ite_none_right_eq_some]
      by_cases hmore : Fit more
      · have hfraction : fraction? (spanDigits rest').1 = some f :=
          fraction?_eq_some_iff.2 ⟨more, hreckon, hmore⟩
        rw [hfraction, and_iff_left hmore, and_comm]
      · -- the fraction is refused for one of its own numbers
        have hnone : fraction? (spanDigits rest').1 = none :=
          fraction?_eq_none fun f' numbers h => by
            rw [hreckon] at h
            cases h
            exact hmore
        rw [hnone]
        refine iff_of_false (fun h => ?_) fun h => hmore h.2.2
        cases h.2
  · have hnone : ∀ rest', rest = '.' :: rest' → False := fun rest' h => hpoint ⟨rest', h⟩
    simp only [term?, reckonTerm?, hspan]
    rw [exists_map_eq_some_iff, hcount, Option.ite_none_right_eq_some, and_comm]

/-! ## One sum -/

theorem ofParts?_eq_some_iff {secs nanos : Nat} {s : Span} :
    ofParts? secs nanos = some s ↔ secs = s.secs ∧ nanos = s.nanos := by
  constructor
  · intro h
    unfold ofParts? at h
    split at h
    · cases h
      exact ⟨rfl, rfl⟩
    · cases h
  · rintro ⟨rfl, rfl⟩
    exact ofParts?_self s

/-- The reckoning comes to the span, and its numbers fit. -/
structure Reckoning.Gives (r : Reckoning) (s : Span) : Prop where
  secs : r.secs = s.secs
  nanos : r.nanos = s.nanos
  fit : Fit r.numbers

namespace Reckoning

variable {r : Reckoning} {s s' : Span}

theorem Gives.unique (h : r.Gives s) (h' : r.Gives s') : s = s' := by
  have hself := ofParts?_self s
  rw [← h.secs, ← h.nanos] at hself
  exact Option.some.inj (hself.symm.trans (ofParts?_eq_some_iff.2 ⟨h'.secs, h'.nanos⟩))

theorem gives_note_iff {numbers : List Nat} :
    (r.note numbers).Gives s ↔ r.Gives s ∧ Fit numbers := by
  constructor
  · intro h
    obtain ⟨hfit, hmore⟩ := fit_append_iff.1 h.fit
    exact ⟨⟨h.secs, h.nanos, hfit⟩, hmore⟩
  · rintro ⟨h, hmore⟩
    exact ⟨h.secs, h.nanos, fit_append_iff.2 ⟨h.fit, hmore⟩⟩

theorem Gives.add (h : r.Gives s) (secs nanos : Nat) :
    s.add? secs nanos = some s' ↔ (r.add secs nanos).Gives s' := by
  unfold add? Reckoning.add
  rw [Option.ite_none_right_eq_some, ofParts?_eq_some_iff, h.secs, h.nanos]
  constructor
  · rintro ⟨hsum, hsecs, hnanos⟩
    have hle := s'.secs_le
    refine ⟨hsecs, hnanos, fit_append_iff.2 ⟨h.fit, ?_⟩⟩
    -- the seconds that are added are no more than their sum with the others
    refine fit_cons_iff.2 ⟨hsum, fit_cons_iff.2 ⟨?_, fit_cons_iff.2 ⟨?_, fit_nil⟩⟩⟩
    · omega
    · omega
  · rintro ⟨hsecs, hnanos, hfit⟩
    obtain ⟨-, hadded⟩ := fit_append_iff.1 hfit
    exact ⟨(fit_cons_iff.1 hadded).1, hsecs, hnanos⟩

/-- Two products are checked before the sum, and so they are on the list before it. -/
theorem Gives.note_add (h : r.Gives s) (n m secs nanos : Nat) :
    ((n ≤ maxWord64 ∧ m ≤ maxWord64) ∧ s.add? secs nanos = some s') ↔
      ((r.note [n, m]).add secs nanos).Gives s' := by
  have hproducts : Fit [n, m] ↔ n ≤ maxWord64 ∧ m ≤ maxWord64 := by
    rw [fit_cons_iff, fit_cons_iff, and_iff_left fit_nil]
  constructor
  · rintro ⟨hle, hadd⟩
    have hnoted : (r.note [n, m]).Gives s := gives_note_iff.2 ⟨h, hproducts.2 hle⟩
    exact (hnoted.add secs nanos).1 hadd
  · intro hsum
    have hfit : Fit (r.numbers ++ [n, m]) := (fit_append_iff.1 hsum.fit).1
    have hle := hproducts.1 (fit_append_iff.1 hfit).2
    have hnoted : (r.note [n, m]).Gives s := gives_note_iff.2 ⟨h, hproducts.2 hle⟩
    exact ⟨hle, (hnoted.add secs nanos).2 hsum⟩

theorem Gives.addWhole (h : r.Gives s) (n : Nat) (u : TimeUnit) :
    s.addWhole? n u = some s' ↔ (r.addWhole n u).Gives s' := by
  unfold addWhole? Reckoning.addWhole
  rw [Option.ite_none_right_eq_some]
  exact h.note_add ..

theorem Gives.addFraction (h : r.Gives s) (f : Fraction) (u : TimeUnit) :
    s.addFraction? f u = some s' ↔ ∃ r', r.addFraction? f u = some r' ∧ r'.Gives s' := by
  unfold Span.addFraction? Reckoning.addFraction?
  cases u.fractionSize? with
  | none => simp
  | some size =>
    obtain ⟨secs, nanos⟩ := size
    simp only
    rw [Option.ite_none_right_eq_some]
    constructor
    · rintro ⟨⟨hsecs, hnanos, heven⟩, hadd⟩
      exact ⟨_, if_pos heven, (h.note_add ..).1 ⟨⟨hsecs, hnanos⟩, hadd⟩⟩
    · rintro ⟨r', hr', hgives⟩
      obtain ⟨heven, heq⟩ := Option.ite_none_right_eq_some.1 hr'
      cases heq
      obtain ⟨⟨hsecs, hnanos⟩, hadd⟩ := (h.note_add ..).2 hgives
      exact ⟨⟨hsecs, hnanos, heven⟩, hadd⟩

/-! ### Numbers stay on the list -/

/-- If the numbers of `r'` fit, then so do those of `r`, and `r'` comes to a span. -/
def Leads (r r' : Reckoning) : Prop := Fit r'.numbers → Fit r.numbers ∧ ∃ s, r'.Gives s

theorem Leads.trans {r' r'' : Reckoning} (h : r.Leads r') (h' : r'.Leads r'') : r.Leads r'' := by
  intro hfit
  obtain ⟨hfit', hgives⟩ := h' hfit
  exact ⟨(h hfit').1, hgives⟩

/-- A sum whose numbers fit is a span, since its seconds are one of them. -/
theorem leads_note_add (r : Reckoning) (numbers : List Nat) (secs nanos : Nat) :
    r.Leads ((r.note numbers).add secs nanos) := by
  intro hfit
  obtain ⟨hnoted, hadded⟩ := fit_append_iff.1 hfit
  have hsecs := (fit_cons_iff.1 (fit_cons_iff.1 (fit_cons_iff.1 hadded).2).2).1
  have hnanos : (r.nanos + nanos) % nanosPerSecond < nanosPerSecond := Nat.mod_lt _ (by decide)
  exact ⟨(fit_append_iff.1 hnoted).1, ⟨_, _, hsecs, hnanos⟩, rfl, rfl, hfit⟩

theorem leads_addWhole (r : Reckoning) (n : Nat) (u : TimeUnit) : r.Leads (r.addWhole n u) :=
  leads_note_add r _ _ _

theorem leads_of_addFraction? {f : Fraction} {u : TimeUnit} {r' : Reckoning}
    (h : r.addFraction? f u = some r') : r.Leads r' := by
  unfold Reckoning.addFraction? at h
  split at h
  · cases h
  · obtain ⟨-, heq⟩ := Option.ite_none_right_eq_some.1 h
    cases heq
    exact leads_note_add r _ _ _

theorem leads_of_addTerm? {n : Nat} {f : Option Fraction} {name : List Char} {r' : Reckoning}
    (h : r.addTerm? n f name = some r') : r.Leads r' := by
  unfold Reckoning.addTerm? at h
  split at h
  · cases h
  · next u hname =>
    split at h
    · cases h
      exact leads_addWhole r n u
    · next f => exact (leads_addWhole r n u).trans (leads_of_addFraction? h)

/-- A term is added if it can be reckoned with numbers that fit. -/
theorem Gives.addTerm (h : r.Gives s) (n : Nat) (f : Option Fraction) (name : List Char) :
    s.addTerm? n f name = some s' ↔ ∃ r', r.addTerm? n f name = some r' ∧ r'.Gives s' := by
  unfold Span.addTerm? Reckoning.addTerm?
  cases TimeUnit.ofName? name with
  | none => simp
  | some u =>
    cases f with
    | none =>
      simp only [Option.some.injEq, exists_eq_left', ← h.addWhole n u]
      cases s.addWhole? n u <;> rfl
    | some f =>
      simp only
      constructor
      · intro hadd
        cases hwhole : s.addWhole? n u with
        | none => rw [hwhole] at hadd; cases hadd
        | some s₁ =>
          rw [hwhole] at hadd
          have hgives : (r.addWhole n u).Gives s₁ := (h.addWhole n u).1 hwhole
          exact (hgives.addFraction f u).1 hadd
      · rintro ⟨r', hr', hgives⟩
        -- the whole part comes to a span, since its numbers are on the list of the sum
        obtain ⟨-, s₁, hs₁⟩ := (leads_addWhole r n u) (leads_of_addFraction? hr' hgives.fit).1
        rw [(h.addWhole n u).2 hs₁]
        exact (hs₁.addFraction f u).2 ⟨r', hr', hgives⟩

end Reckoning

/-! ## The terms one after the other -/

theorem reckonTerms?_eq (r : Reckoning) (cs : List Char) :
    reckonTerms? r cs = match trimStart cs with
      | [] => some r
      | d :: rest =>
        if d.isDigit then
          (reckonTerm? d rest).bind fun p =>
            ((r.note p.2).addTerm? p.1.count p.1.fraction p.1.name).bind fun r =>
              reckonTerms? r p.1.rest
        else none := by
  rw [reckonTerms?]
  split
  · next heq => simp only [heq]
  · next heq =>
    simp only [heq]
    split
    · split
      · next hterm => simp [hterm]
      · next hterm =>
        rw [hterm, Option.bind_some]
        split
        · next hadd => simp [hadd]
        · next hadd => simp [hadd]
    · rfl

/-- Behind a term there is less to read. -/
theorem length_rest_lt {cs rest : List Char} {d : Char} {t : Term} {numbers : List Nat}
    (htrim : trimStart cs = d :: rest) (h : reckonTerm? d rest = some (t, numbers)) :
    t.rest.length < cs.length := by
  have htrimmed : (trimStart cs).length ≤ cs.length := length_dropWhile_le isBlank cs
  have hterm := length_rest_of_reckonTerm? h
  rw [htrim, List.length_cons] at htrimmed
  omega

theorem fit_of_reckonTerms? {r r' : Reckoning} {cs : List Char}
    (h : reckonTerms? r cs = some r') (hfit : Fit r'.numbers) : Fit r.numbers := by
  induction hlength : cs.length using Nat.strongRecOn generalizing cs r with
  | _ length ih =>
    rw [reckonTerms?_eq] at h
    cases htrim : trimStart cs with
    | nil =>
      rw [htrim] at h
      cases h
      exact hfit
    | cons d rest =>
      rw [htrim] at h
      obtain ⟨-, h⟩ := Option.ite_none_right_eq_some.1 h
      obtain ⟨⟨t, numbers⟩, hterm, h⟩ := Option.bind_eq_some_iff.1 h
      obtain ⟨r₁, hadd, h⟩ := Option.bind_eq_some_iff.1 h
      have hlater : Fit r₁.numbers := ih _ (hlength ▸ length_rest_lt htrim hterm) h rfl
      have hnoted := (Reckoning.leads_of_addTerm? hadd hlater).1
      exact (fit_append_iff.1 hnoted).1

/-- Terms are read and added if they can be reckoned with numbers that fit, by induction on the
    length of the text. -/
theorem Reckoning.Gives.readTerms {r : Reckoning} {s s' : Span} (h : r.Gives s) (cs : List Char) :
    readTerms? s cs = some s' ↔ ∃ r', reckonTerms? r cs = some r' ∧ r'.Gives s' := by
  induction hlength : cs.length using Nat.strongRecOn generalizing cs r s with
  | _ length ih =>
    rw [readTerms?_eq, reckonTerms?_eq]
    cases htrim : trimStart cs with
    | nil =>
      constructor
      · rintro ⟨⟩
        exact ⟨r, rfl, h⟩
      · rintro ⟨_, ⟨⟩, hgives⟩
        exact congrArg some (h.unique hgives)
    | cons d rest =>
      simp only [Option.ite_none_right_eq_some]
      constructor
      · rintro ⟨hdigit, hread⟩
        obtain ⟨t, hterm, hread⟩ := Option.bind_eq_some_iff.1 hread
        obtain ⟨s₁, hadd, hread⟩ := Option.bind_eq_some_iff.1 hread
        obtain ⟨numbers, hreckon, hfit⟩ := term?_eq_some_iff.1 hterm
        have hnoted : (r.note numbers).Gives s := gives_note_iff.2 ⟨h, hfit⟩
        obtain ⟨r₁, hsum, hgives⟩ := (hnoted.addTerm ..).1 hadd
        have hshorter := hlength ▸ length_rest_lt htrim hreckon
        obtain ⟨r', hr', hlast⟩ := (ih _ hshorter hgives _ rfl).1 hread
        refine ⟨r', ⟨hdigit, ?_⟩, hlast⟩
        rw [hreckon, Option.bind_some, hsum, Option.bind_some, hr']
      · rintro ⟨r', ⟨hdigit, hr'⟩, hlast⟩
        obtain ⟨⟨t, numbers⟩, hreckon, hr'⟩ := Option.bind_eq_some_iff.1 hr'
        obtain ⟨r₁, hsum, hr'⟩ := Option.bind_eq_some_iff.1 hr'
        -- the list of the whole text holds the numbers of this term and those of its sum
        have hlater : Fit r₁.numbers := fit_of_reckonTerms? hr' hlast.fit
        obtain ⟨hnumbers, s₁, hs₁⟩ := leads_of_addTerm? hsum hlater
        obtain ⟨-, hfit⟩ := fit_append_iff.1 hnumbers
        have hnoted : (r.note numbers).Gives s := gives_note_iff.2 ⟨h, hfit⟩
        have hterm : term? d rest = some t := term?_eq_some_iff.2 ⟨numbers, hreckon, hfit⟩
        have hadd := (hnoted.addTerm t.count t.fraction t.name).2 ⟨r₁, hsum, hs₁⟩
        have hshorter := hlength ▸ length_rest_lt htrim hreckon
        refine ⟨hdigit, ?_⟩
        rw [hterm, Option.bind_some, hadd, Option.bind_some]
        exact (ih _ hshorter hs₁ _ rfl).2 ⟨r', hr', hlast⟩

/-- A text is read as a span if it can be reckoned with numbers that fit. -/
theorem read?_eq_some_iff {cs : List Char} {s : Span} :
    read? cs = some s ↔ ∃ r, reckon? cs = some r ∧ r.Gives s := by
  have hzero : Reckoning.Gives ⟨0, 0, []⟩ zero := ⟨rfl, rfl, fit_nil⟩
  unfold read? reckon?
  by_cases hnought : cs = ['0']
  · rw [if_pos hnought, if_pos hnought]
    constructor
    · rintro ⟨⟩
      exact ⟨_, rfl, hzero⟩
    · rintro ⟨_, ⟨⟩, hgives⟩
      exact congrArg some (hzero.unique hgives)
  · rw [if_neg hnought, if_neg hnought]
    by_cases hblank : trimStart cs = []
    · simp [hblank]
    · rw [if_neg hblank, if_neg hblank]
      exact hzero.readTerms cs

/-- A text is read as a time budget exactly if it can be reckoned and every product and every
    sum on the way fits into a word of 64 bits. The text that is written for a span is read as
    just that span, up to the longest, so none of its products and sums is too large. -/
theorem text_lossless :
    (∀ (text : String) (s : Span), Value.span? (.string text) = some s ↔
      ∃ r, reckon? text.toList = some r ∧ r.Gives s) ∧
    ∀ s : Span, Value.span? (Entry.string s.text).value = some s ∧
      ∃ r, reckon? s.text.toList = some r ∧ r.secs = s.secs ∧ r.nanos = s.nanos ∧
        Fit r.numbers := by
  have hread : ∀ (text : String) (s : Span), Value.span? (.string text) = some s ↔
      ∃ r, reckon? text.toList = some r ∧ r.Gives s := fun text s => read?_eq_some_iff
  refine ⟨hread, fun s => ⟨span?_text s, ?_⟩⟩
  obtain ⟨r, hr, hgives⟩ := (hread s.text s).1 (span?_text s)
  exact ⟨r, hr, hgives.secs, hgives.nanos, hgives.fit⟩

/-- The longest span that there is. Its text uses every unit that a text is written in. -/
theorem text_lossless_longest :
    let longest : Span := ⟨maxWord64, 999999999, by decide, by decide⟩
    longest.text = "584542046090years 7months 15days 17h 5m 3s 999ms 999us 999ns" ∧
      Value.span? (Entry.string longest.text).value = some longest ∧
      ∃ r, reckon? longest.text.toList = some r ∧ r.secs = 18446744073709551615 ∧
        r.nanos = 999999999 ∧ Fit r.numbers := by
  intro longest
  have hwrite : longest.write =
      "584542046090years 7months 15days 17h 5m 3s 999ms 999us 999ns".toList := by
    decide +kernel
  refine ⟨?_, text_lossless.2 longest⟩
  rw [text, hwrite, String.ofList_toList]

end CompilerFuzz.Span
