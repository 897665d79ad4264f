/-
  CompilerFuzz.Proofs.Triage.Verdicts

  The verdicts that a report holds. They determine it (`Report.eq_of_holds`), since what stands
  under a key is an ascending list. So if they are written as lines that say them, a log of
  these lines has the same report, whatever the order of the lines
  (`Report.build_of_written`); where the last payload replaces earlier ones, there is only one
  to be written.
-/
import CompilerFuzz.Proofs.Triage.Contents

namespace CompilerFuzz.Triage

open CompilerFuzz.Text

theorem Severity.mem_all (s : Severity) : s ∈ Severity.all := by
  cases s <;> decide

namespace Report

/-- A payload stands under a key of a severity. -/
def Holds (r : Report) (s : Severity) (k : SortKey) (p : String) : Prop :=
  ∃ ps, (k, ps) ∈ r.entries s ∧ p ∈ ps

theorem holds_iff_mem_payloads? {r : Report} {s : Severity} {k : SortKey} {p : String} :
    r.Holds s k p ↔ p ∈ (r.payloads? s k).getD [] := by
  unfold Holds
  simp only [← payloads?_eq_some_iff]
  cases r.payloads? s k with
  | none => simp
  | some ps => simp

/-- What stands under a key ascends. -/
theorem ascending_payloads {r : Report} {s : Severity} {k : SortKey} {ps : Payloads}
    (hps : (k, ps) ∈ r.entries s) : Sorted.Ascending byteOrder ps :=
  ((r.wellFormed_entries s).payloads (k, ps) hps).ascending

theorem mem_iff_holds {r : Report} {s : Severity} {k : SortKey} {ps : Payloads} {p : String}
    (hps : (k, ps) ∈ r.entries s) : p ∈ ps ↔ r.Holds s k p := by
  rw [holds_iff_mem_payloads?, payloads?_eq_some_iff.2 hps, Option.getD_some]

/-- The report as lines, one for every payload. -/
def written (write : Severity → SortKey → String → String) (r : Report) : List String :=
  Severity.all.flatMap fun s => (r.entries s).flatMap fun e => e.2.map (write s e.1)

theorem mem_written_iff {write : Severity → SortKey → String → String} {r : Report}
    {line : String} :
    line ∈ r.written write ↔ ∃ s k p, r.Holds s k p ∧ line = write s k p := by
  unfold written Holds
  simp only [List.mem_flatMap, List.mem_map]
  constructor
  · rintro ⟨s, -, ⟨k, ps⟩, hps, p, hp, rfl⟩
    exact ⟨s, k, p, ⟨ps, hps, hp⟩, rfl⟩
  · rintro ⟨s, k, p, ⟨ps, hps, hp⟩, rfl⟩
    exact ⟨s, s.mem_all, (k, ps), hps, p, hp, rfl⟩

/-! ## Equal reports -/

/-- What one report holds under a key, another one with the same verdicts holds there. -/
theorem mem_entries_of_holds {r r' : Report} {s : Severity} {k : SortKey}
    (hsame : ∀ p, r.Holds s k p ↔ r'.Holds s k p) {ps : Payloads} (hps : (k, ps) ∈ r.entries s) :
    (k, ps) ∈ r'.entries s := by
  -- a payload under the key shows that the other report has the key too
  have hne : ps ≠ [] := ((r.wellFormed_entries s).payloads (k, ps) hps).nonempty
  obtain ⟨p, hp⟩ := List.exists_mem_of_ne_nil ps hne
  obtain ⟨ps', hps', -⟩ := (hsame p).1 ⟨ps, hps, hp⟩
  have hequal : ps = ps' := by
    refine (ascending_payloads hps).ext (ascending_payloads hps') fun q => ?_
    rw [mem_iff_holds hps, mem_iff_holds hps', hsame q]
  rw [hequal]
  exact hps'

/-- Two reports of one layout that hold the same verdicts are equal. -/
theorem eq_of_holds {r r' : Report} (hlayout : r.layout = r'.layout)
    (hsame : ∀ s k p, r.Holds s k p ↔ r'.Holds s k p) : r = r' := by
  refine eq_of_payloads?_eq hlayout fun s k => Option.ext fun ps => ?_
  rw [payloads?_eq_some_iff, payloads?_eq_some_iff]
  exact ⟨mem_entries_of_holds (hsame s k), mem_entries_of_holds fun p => (hsame s k p).symm⟩

section Finished

variable {c : Classifier} {log log' : LogLines} {r r' : Report} {s : Severity} {k : SortKey}
  {p q : String}

/-- What a report holds, some line of its log says. -/
theorem Holds.exists_line (hp : r.Holds s k p) (h : build c log = .ok r) :
    ∃ line ∈ log.lines, c.classify line = .ok (some ⟨s, k, p⟩) := by
  obtain ⟨ps, hps, hmem⟩ := hp
  cases hs : c.merge s with
  | accumulate => exact ((payloads_of_accumulate h hs hps).2 p).1 hmem
  | replace =>
    obtain ⟨q, hlast, rfl⟩ := payloads_of_replace h hs hps
    rw [List.mem_singleton.1 hmem]
    exact Classifier.mem_payloads_iff.1 (List.mem_of_getLast? hlast)

theorem Holds.eq_of_replace (hp : r.Holds s k p) (hq : r.Holds s k q) (h : build c log = .ok r)
    (hs : c.merge s = .replace) : p = q := by
  obtain ⟨ps, hps, hmem⟩ := hp
  rw [← mem_iff_holds hps] at hq
  obtain ⟨a, -, rfl⟩ := payloads_of_replace h hs hps
  rw [List.mem_singleton.1 hmem, List.mem_singleton.1 hq]

/-- If what a report holds is written as lines that say it, the log of these lines has the same
    report, whatever their order. -/
theorem build_of_written (h : build c log = .ok r) {write : Severity → SortKey → String → String}
    (hwrite : ∀ s k p, r.Holds s k p → c.classify (write s k p) = .ok (some ⟨s, k, p⟩))
    (hlines : ∀ line, line ∈ log'.lines ↔ line ∈ r.written write) : build c log' = .ok r := by
  have hsays : ∀ line ∈ log'.lines, ∃ s k p, r.Holds s k p ∧
      c.classify line = .ok (some ⟨s, k, p⟩) := by
    intro line hline
    obtain ⟨s, k, p, hp, rfl⟩ := mem_written_iff.1 ((hlines line).1 hline)
    exact ⟨s, k, p, hp, hwrite s k p hp⟩
  obtain ⟨r', h'⟩ : ∃ r', build c log' = .ok r' := by
    refine exists_addLines_iff.2 fun line hline => ?_
    obtain ⟨s, k, p, -, hv⟩ := hsays line hline
    exact ⟨_, hv⟩
  -- every line of the new log says something that was held
  have hback : ∀ s k p, r'.Holds s k p → r.Holds s k p := by
    intro s k p hp
    obtain ⟨line, hline, hv⟩ := hp.exists_line h'
    obtain ⟨s', k', p', hp', hv'⟩ := hsays line hline
    rw [hv] at hv'
    cases hv'
    exact hp'
  -- and all that was held is said by one
  have hforth : ∀ s k p, r.Holds s k p → r'.Holds s k p := by
    intro s k p hp
    have hline : write s k p ∈ log'.lines := (hlines _).2 (mem_written_iff.2 ⟨s, k, p, hp, rfl⟩)
    obtain ⟨ps, hps⟩ := (exists_mem_entries_iff h').2 ⟨_, hline, p, hwrite s k p hp⟩
    cases hs : c.merge s with
    | accumulate =>
      have hmem := (payloads_of_accumulate h' hs hps).2 p
      exact ⟨ps, hps, hmem.2 ⟨_, hline, hwrite s k p hp⟩⟩
    | replace =>
      -- the payload that stands there was held before, and only one was
      obtain ⟨q, -, rfl⟩ := payloads_of_replace h' hs hps
      have hq : r'.Holds s k q := ⟨_, hps, List.mem_singleton_self q⟩
      rw [hp.eq_of_replace (hback s k q hq) h hs]
      exact hq
  have hlayout : r'.layout = r.layout := (layout_of_build h').trans (layout_of_build h).symm
  rw [h', eq_of_holds hlayout fun s k p => ⟨hback s k p, hforth s k p⟩]

end Finished

end Report

end CompilerFuzz.Triage
