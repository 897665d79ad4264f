/-
  CompilerFuzz.Proofs.Triage.Concatenation

  The report of a log that was appended to another one. A line that stands in both logs
  moves to its place in the second, so the distinct lines of the whole are not those of the
  parts one after the other; but what stands under a key is a fold of the merge rule over the
  raw lines, and a fold over appended lines starts where the first part ended. It comes to
  joining what the two parts hold (`Merge.held_eq_join`), which is what `Report.merge` does
  under every key (`Report.payloads?_merge`).
-/
import CompilerFuzz.Proofs.Triage.Deduplication
import CompilerFuzz.Proofs.Triage.Verdicts
import CompilerFuzz.Triage.Checker

namespace CompilerFuzz.Triage

open CompilerFuzz.Text

/-! ## What two logs hold under one key -/

namespace Merge

/-- Entering payloads one by one comes to joining the payloads that they make on their own. -/
theorem held_eq_join (rule : Merge) (ps : List String) {old : Option Payloads}
    (hold : Sorted.Ascending byteOrder (old.getD [])) :
    rule.held ps old = (rule.held ps none).elim old fun later => some (rule.join later old) := by
  cases hlater : rule.held ps none with
  | none =>
    rw [held_eq_none_iff.1 hlater]
    rfl
  | some later =>
    show rule.held ps old = some (rule.join later old)
    cases rule with
    | replace =>
      rw [held_replace, Option.or_none] at hlater
      rw [held_replace, hlater]
      rfl
    | accumulate =>
      cases hall : accumulate.held ps old with
      | none =>
        -- a payload was entered, so something stands there
        cases ps with
        | nil => cases hlater
        | cons p ps => exact absurd hall (held_some_ne_none _ _ _)
      | some xs =>
        obtain ⟨hxs, hmem⟩ := held_accumulate hall hold
        obtain ⟨-, hlmem⟩ := held_accumulate hlater List.Pairwise.nil
        have hjoin : Sorted.Ascending byteOrder (accumulate.join later old) :=
          Sorted.ascending_union later hold
        rw [hxs.ext hjoin fun p => ?_]
        show p ∈ xs ↔ p ∈ Sorted.union byteOrder (old.getD []) later
        rw [hmem, Sorted.mem_union, hlmem, Option.getD_none]
        simp

end Merge

/-! ## The merge of two reports -/

namespace Report

theorem entries_merge (rules : Severity → Merge) (r r' : Report) (s : Severity) :
    (merge rules r r').entries s = Group.merge (rules s) (r.entries s) (r'.entries s) := by
  show (Sorted.find? Severity.order s (r.groups.merge rules r'.groups)).getD [] = _
  unfold Groups.merge
  rw [Sorted.find?_alterAll _ s r'.wellFormed.severities r.wellFormed.severities]
  unfold entries
  cases Sorted.find? Severity.order s r'.groups with
  | none => rfl
  | some g => rfl

/-- Under every key stand the payloads of both reports, joined by the rule of the severity. -/
theorem payloads?_merge (rules : Severity → Merge) (r r' : Report) (s : Severity) (k : SortKey) :
    (merge rules r r').payloads? s k =
      (r'.payloads? s k).elim (r.payloads? s k) fun later =>
        some ((rules s).join later (r.payloads? s k)) := by
  unfold payloads?
  rw [entries_merge]
  exact Sorted.find?_alterAll _ k (r'.ascendingKeys_entries s) (r.ascendingKeys_entries s)

/-- A payload that counts stands in the merge if it stands in one of the reports. -/
theorem holds_merge_iff {rules : Severity → Merge} {r r' : Report} {s : Severity}
    (hs : rules s = .accumulate) {k : SortKey} {p : String} :
    (merge rules r r').Holds s k p ↔ r.Holds s k p ∨ r'.Holds s k p := by
  rw [holds_iff_mem_payloads?, holds_iff_mem_payloads?, holds_iff_mem_payloads?, payloads?_merge, hs]
  cases r'.payloads? s k with
  | none => simp
  | some later => exact Sorted.mem_union

/-! ## Appended logs -/

section Append

variable {c : Classifier} {a b : String} {r r' : Report}

theorem exists_build_append_iff (ha : EndsLine a) :
    (∃ r, build c (LogLines.ofText (a ++ b)) = .ok r) ↔
      (∃ r, build c (LogLines.ofText a) = .ok r) ∧ ∃ r, build c (LogLines.ofText b) = .ok r := by
  simp only [exists_build_ofText_iff, rawLines_append ha, List.mem_append]
  exact ⟨fun h => ⟨fun line hline => h line (.inl hline), fun line hline => h line (.inr hline)⟩,
    fun h line hline => hline.elim (h.1 line) (h.2 line)⟩

/-- What stands under a key ascends, also if nothing does. -/
theorem ascending_payloads? (r : Report) (s : Severity) (k : SortKey) :
    Sorted.Ascending byteOrder ((r.payloads? s k).getD []) := by
  cases hps : r.payloads? s k with
  | none => exact List.Pairwise.nil
  | some ps => exact ascending_payloads (payloads?_eq_some_iff.1 hps)

/-- The report of a log behind whole lines is the merge of the two reports. -/
theorem build_append_eq_merge (ha : EndsLine a) (hr : build c (LogLines.ofText a) = .ok r)
    (hr' : build c (LogLines.ofText b) = .ok r') :
    build c (LogLines.ofText (a ++ b)) = .ok (merge c.merge r r') := by
  obtain ⟨w, hw⟩ := (exists_build_append_iff ha).2 ⟨⟨r, hr⟩, r', hr'⟩
  have hlayout : w.layout = (merge c.merge r r').layout :=
    (layout_of_build hw).trans (layout_of_build hr).symm
  rw [hw, eq_of_payloads?_eq hlayout fun s k => ?_]
  -- the lines of the first log come first, and those of the second find what they left
  have hfold : w.payloads? s k =
      (c.merge s).held (c.payloads s k (rawLines b)) (r.payloads? s k) := by
    rw [payloads?_of_build_ofText hw, payloads?_of_build_ofText hr, rawLines_append ha]
    unfold Classifier.payloads Merge.held
    rw [List.filterMap_append, List.foldl_append]
  rw [hfold, payloads?_merge, payloads?_of_build_ofText hr',
    Merge.held_eq_join _ _ (ascending_payloads? r s k)]

/-- Copies of a log have the distinct lines of the log. -/
theorem ofText_join_replicate (ha : EndsLine a) (n : Nat) :
    LogLines.ofText (String.join (List.replicate (n + 1) a)) = LogLines.ofText a := by
  have hlines : keepLast (List.replicate (n + 1) (rawLines a)).flatten = keepLast (rawLines a) := by
    induction n with
    | zero => simp
    | succ n ih =>
      have hsubset : rawLines a ⊆ (List.replicate (n + 1) (rawLines a)).flatten := by
        rw [List.replicate_succ, List.flatten_cons]
        exact List.subset_append_left _ _
      rw [List.replicate_succ, List.flatten_cons, keepLast_append_of_subset hsubset, ih]
  refine LogLines.ext ?_
  rw [LogLines.lines_ofText, LogLines.lines_ofText, rawLines_join_replicate ha, hlines]

end Append

/-- Building reports is a homomorphism for appended logs, if the first of them ends a line. The
    whole is rejected if one of the parts is; otherwise its report is the merge of their reports,
    in which an accumulating severity has under each key the payloads of both, and a replacing
    one those of the second log if it has the key. Copies of a log have the report of the log. -/
theorem build_append (c : Classifier) {a : String} (ha : EndsLine a) (b : String) :
    ((∃ e, build c (LogLines.ofText (a ++ b)) = .error e) ↔
      (∃ e, build c (LogLines.ofText a) = .error e) ∨
        ∃ e, build c (LogLines.ofText b) = .error e) ∧
    (∀ r r', build c (LogLines.ofText a) = .ok r → build c (LogLines.ofText b) = .ok r' →
      build c (LogLines.ofText (a ++ b)) = .ok (merge c.merge r r') ∧
      ∀ s k,
        (c.merge s = .accumulate → ∀ p,
          (merge c.merge r r').Holds s k p ↔ r.Holds s k p ∨ r'.Holds s k p) ∧
        (c.merge s = .replace →
          (merge c.merge r r').payloads? s k = (r'.payloads? s k).or (r.payloads? s k))) ∧
    ∀ n, build c (LogLines.ofText (String.join (List.replicate (n + 1) a))) =
      build c (LogLines.ofText a) := by
  refine ⟨?_, fun r r' hr hr' => ⟨build_append_eq_merge ha hr hr', fun s k => ⟨?_, ?_⟩⟩, ?_⟩
  · simp only [exists_build_eq_error_iff, rawLines_append ha, List.mem_append, or_and_right,
      exists_or]
  · exact fun hs p => holds_merge_iff hs
  · intro hs
    rw [payloads?_merge, hs]
    cases r'.payloads? s k with
    | none => rfl
    | some later => rfl
  · exact fun n => by rw [ofText_join_replicate ha]

/-- The first message of the first log comes again in the second and wins there, and both logs
    have a message for one failing number. -/
theorem append_of_checker_logs :
    let a := "[Checker] Pass! 1 (x)\n[Checker] Pass! 1 (y)\n[Checker] Fail! 7 (b)\n"
    let b := "[Checker] Pass! 1 (x)\r\n[Checker] Fail! 7 (a)"
    EndsLine a ∧ ∃ r r', build Checker.classifier (LogLines.ofText a) = .ok r ∧
      build Checker.classifier (LogLines.ofText b) = .ok r' ∧
      r.payloads? .pass (.number 1) = some ["y"] ∧
      build Checker.classifier (LogLines.ofText (a ++ b)) =
        .ok (merge Checker.classifier.merge r r') ∧
      (merge Checker.classifier.merge r r').payloads? .pass (.number 1) = some ["x"] ∧
      (merge Checker.classifier.merge r r').Holds .fail (.number 7) "b" ∧
      build Checker.classifier (LogLines.ofText (String.join [a, a, a])) = .ok r := by
  intro a b
  have ha : EndsLine a := .inr (by decide +kernel)
  have hr : build Checker.classifier (LogLines.ofText a) =
      .ok ⟨[(.pass, [(.number 1, ["y"])]), (.fail, [(.number 7, ["b"])])], .keyed,
        by decide +kernel⟩ := by
    decide +kernel
  have hr' : build Checker.classifier (LogLines.ofText b) =
      .ok ⟨[(.pass, [(.number 1, ["x"])]), (.fail, [(.number 7, ["a"])])], .keyed,
        by decide +kernel⟩ := by
    decide +kernel
  obtain ⟨-, hmerge, hcopies⟩ := build_append Checker.classifier ha b
  obtain ⟨hbuild, hunder⟩ := hmerge _ _ hr hr'
  refine ⟨ha, _, _, hr, hr', rfl, hbuild, (hunder .pass (.number 1)).2 rfl, ?_, ?_⟩
  · -- the other message is that of the earlier log
    refine ((hunder .fail (.number 7)).1 rfl "b").2 (.inl ⟨["b"], ?_, ?_⟩) <;>
      exact List.mem_singleton_self _
  · exact (hcopies 2).trans hr

end Report

end CompilerFuzz.Triage
