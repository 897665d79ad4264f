/-
  CompilerFuzz.Proofs.Triage.Deduplication

  Dropping repeated lines is invisible in a report. Keeping of equal lines only the last
  one changes neither the set of payloads that are entered under a key nor the last of
  them (`getLast?_filterMap_keepLast`), and a merge rule looks at nothing else
  (`Merge.held_congr`). A rule that kept the first of equal lines would lose the second
  fact, and with it every key whose last payload had been there before.
-/
import CompilerFuzz.Proofs.Triage.Contents

namespace CompilerFuzz.Triage

open CompilerFuzz.Text

/-! ## Lines kept at their last place -/

theorem mem_filterMap_keepLast {f : String → Option String} {xs : List String} {p : String} :
    p ∈ (keepLast xs).filterMap f ↔ p ∈ xs.filterMap f := by
  simp only [List.mem_filterMap, mem_keepLast]

/-- The last element that `f` keeps is the same with and without the repetitions. -/
theorem getLast?_filterMap_keepLast (f : String → Option String) (xs : List String) :
    ((keepLast xs).filterMap f).getLast? = (xs.filterMap f).getLast? := by
  induction xs with
  | nil => rfl
  | cons x xs ih =>
    rw [keepLast_cons]
    by_cases hx : x ∈ xs
    · rw [if_pos hx, ih, List.filterMap_cons]
      cases hf : f x with
      | none => rfl
      | some p =>
        -- `x` comes again, so what it enters is not the last of the longer list either.
        have hp : p ∈ xs.filterMap f := List.mem_filterMap.2 ⟨x, hx, hf⟩
        obtain ⟨q, qs, e⟩ := List.exists_cons_of_ne_nil (List.ne_nil_of_mem hp)
        show _ = (p :: xs.filterMap f).getLast?
        rw [e, List.getLast?_cons_cons]
    · rw [if_neg hx, List.filterMap_cons, List.filterMap_cons]
      cases f x with
      | none => exact ih
      | some p =>
        show (p :: (keepLast xs).filterMap f).getLast? = (p :: xs.filterMap f).getLast?
        rw [List.getLast?_cons, List.getLast?_cons, ih]

/-- Is the line a verdict gone wrong? -/
def Classifier.Rejects (c : Classifier) (line : String) : Prop :=
  ∃ e, c.classify line = .error e

theorem Classifier.not_rejects_iff {c : Classifier} {line : String} :
    ¬ c.Rejects line ↔ ∃ v, c.classify line = .ok v := by
  unfold Rejects
  cases c.classify line <;> simp

namespace Report

/-- Entering lines is the fold of the insertion rule over them. -/
theorem addLines_eq_foldlM (c : Classifier) (r : Report) (lines : List String) :
    addLines c r lines = lines.foldlM (addLine c) r := by
  induction lines generalizing r with
  | nil => rfl
  | cons line rest ih =>
    rw [List.foldlM_cons, addLines]
    cases addLine c r line with
    | error e => rfl
    | ok r₁ => exact ih r₁

/-- Without its repetitions a log has the same report, if it has one at all. -/
theorem addLines_keepLast_eq_ok_iff (c : Classifier) (layout : Layout) (lines : List String)
    (r : Report) :
    addLines c (empty layout) (keepLast lines) = .ok r ↔
      addLines c (empty layout) lines = .ok r := by
  have hsuccess : (∃ r, addLines c (empty layout) (keepLast lines) = .ok r) ↔
      ∃ r, addLines c (empty layout) lines = .ok r := by
    rw [exists_addLines_iff, exists_addLines_iff]
    simp only [mem_keepLast]
  -- two reports are equal as soon as they hold the same under every key
  have hequal : ∀ {r₁ r₂}, addLines c (empty layout) (keepLast lines) = .ok r₁ →
      addLines c (empty layout) lines = .ok r₂ → r₁ = r₂ := by
    intro r₁ r₂ h₁ h₂
    obtain ⟨hl₁, hp₁⟩ := payloads?_addLines h₁
    obtain ⟨hl₂, hp₂⟩ := payloads?_addLines h₂
    refine eq_of_payloads?_eq (hl₁.trans hl₂.symm) fun s k => ?_
    rw [hp₁, hp₂, payloads?_empty]
    exact Merge.held_congr _ (fun _ => mem_filterMap_keepLast) fun _ =>
      getLast?_filterMap_keepLast _ _
  constructor
  · intro h
    obtain ⟨r₂, h₂⟩ := hsuccess.1 ⟨r, h⟩
    rw [hequal h h₂, h₂]
  · intro h
    obtain ⟨r₁, h₁⟩ := hsuccess.2 ⟨r, h⟩
    rw [← hequal h₁ h, h₁]

section Text

variable {c : Classifier} {text : String} {r : Report}

/-- The report of a text is that of its raw lines. -/
theorem build_ofText_eq_ok_iff : build c (LogLines.ofText text) = .ok r ↔
    addLines c (empty c.layout) (rawLines text) = .ok r :=
  addLines_keepLast_eq_ok_iff c c.layout (rawLines text) r

/-- A text has a report if no line of it is rejected. -/
theorem exists_build_ofText_iff : (∃ r, build c (LogLines.ofText text) = .ok r) ↔
    ∀ line ∈ rawLines text, ∃ v, c.classify line = .ok v := by
  simp only [build_ofText_eq_ok_iff, exists_addLines_iff]

/-- A text has no report if one line of it is rejected. -/
theorem exists_build_eq_error_iff : (∃ e, build c (LogLines.ofText text) = .error e) ↔
    ∃ line ∈ rawLines text, c.Rejects line := by
  have hok : (∃ r, build c (LogLines.ofText text) = .ok r) ↔
      ∀ line ∈ rawLines text, ∃ v, c.classify line = .ok v := exists_build_ofText_iff
  cases h : build c (LogLines.ofText text) with
  | ok r =>
    refine ⟨nofun, ?_⟩
    rintro ⟨line, hline, hrej⟩
    exact absurd hrej (Classifier.not_rejects_iff.2 (hok.1 ⟨r, h⟩ line hline))
  | error e =>
    refine ⟨fun _ => ?_, fun _ => ⟨e, rfl⟩⟩
    by_contra hnone
    obtain ⟨r, hr⟩ := hok.2 fun line hline =>
      Classifier.not_rejects_iff.1 fun hrej => hnone ⟨line, hline, hrej⟩
    rw [h] at hr
    cases hr

/-- What stands under a key, told by the raw lines. -/
theorem payloads?_of_build_ofText (h : build c (LogLines.ofText text) = .ok r) (s : Severity)
    (k : SortKey) : r.payloads? s k = (c.merge s).held (c.payloads s k (rawLines text)) none :=
  (payloads?_addLines (build_ofText_eq_ok_iff.1 h)).2 s k

end Text

/-- The last payload under a key is that of the last line that carries the key. -/
theorem getLast?_payloads_eq_some_iff {c : Classifier} {s : Severity} {k : SortKey} {p : String}
    {lines : List String} :
    (c.payloads s k lines).getLast? = some p ↔ ∃ earlier line later,
      lines = earlier ++ line :: later ∧ c.classify line = .ok (some ⟨s, k, p⟩) ∧
      ∀ l ∈ later, ∀ q, c.classify l ≠ .ok (some ⟨s, k, q⟩) := by
  have hnone : ∀ l, c.payload? s k l = none ↔ ∀ q, c.classify l ≠ .ok (some ⟨s, k, q⟩) := by
    intro l
    rw [Option.eq_none_iff_forall_ne_some]
    simp only [ne_eq, Classifier.payload?_eq_some_iff]
  unfold Classifier.payloads
  rw [List.getLast?_filterMap, List.findSome?_eq_some_iff]
  simp only [Classifier.payload?_eq_some_iff, hnone]
  constructor
  · rintro ⟨later, line, earlier, hsplit, hline, hlater⟩
    refine ⟨earlier.reverse, line, later.reverse, ?_, hline, fun l hl => ?_⟩
    · rw [← List.reverse_reverse lines, hsplit]
      simp
    · exact hlater l (List.mem_reverse.1 hl)
  · rintro ⟨earlier, line, later, rfl, hline, hlater⟩
    refine ⟨later.reverse, line, earlier.reverse, by simp, hline, fun l hl => ?_⟩
    exact hlater l (List.mem_reverse.1 hl)

/-- Deduplication is invisible: a log has a report if and only if the fold of the insertion
    rule over all its raw lines succeeds, and the two are one report. Where the last payload
    replaces earlier ones, it is the payload of the last raw line that carries the key. -/
theorem build_ofText_eq_ok_iff_foldlM (c : Classifier) (text : String) :
    (∀ r, build c (LogLines.ofText text) = .ok r ↔
      (rawLines text).foldlM (addLine c) (empty c.layout) = .ok r) ∧
    ∀ r, build c (LogLines.ofText text) = .ok r →
      ∀ s k p earlier line later,
        c.merge s = .replace →
        rawLines text = earlier ++ line :: later →
        c.classify line = .ok (some ⟨s, k, p⟩) →
        (∀ l ∈ later, ∀ q, c.classify l ≠ .ok (some ⟨s, k, q⟩)) →
        (k, [p]) ∈ r.entries s := by
  refine ⟨fun r => ?_, ?_⟩
  · rw [← addLines_eq_foldlM]
    exact addLines_keepLast_eq_ok_iff c c.layout (rawLines text) r
  · intro r h s k p earlier line later hs hraw hline hlater
    have hlast : (c.payloads s k (rawLines text)).getLast? = some p :=
      getLast?_payloads_eq_some_iff.2 ⟨earlier, line, later, hraw, hline, hlater⟩
    rw [← payloads?_eq_some_iff, payloads?_of_build_ofText h, hs, Merge.held_replace, hlast]
    rfl

end Report

end CompilerFuzz.Triage
