/-
  CompilerFuzz.Proofs.Triage.Contents

  What stands in a report, told by the lines of its log. When lines are entered one after
  another, what stands under a key is the fold of the merge rule over the payloads that the
  lines enter there (`payloads?_addLines`). A report is determined by what stands under its
  keys (`Report.eq_of_payloads?_eq`), so everything about a finished report follows from these
  folds.
-/
import Mathlib.Data.Set.Card
import CompilerFuzz.Triage.Checker
import CompilerFuzz.Triage.Report

namespace CompilerFuzz.Triage

open CompilerFuzz.Text

/-! ## The payloads of a log -/

/-- The payload that a line enters under a key of a severity. -/
def Classifier.payload? (c : Classifier) (s : Severity) (k : SortKey) (line : String) :
    Option String :=
  match c.classify line with
  | .ok (some v) => if v.severity = s ∧ v.key = k then some v.payload else none
  | .ok none => none
  | .error _ => none

/-- The payloads that lines enter under a key of a severity, in the order of the lines. -/
def Classifier.payloads (c : Classifier) (s : Severity) (k : SortKey) (lines : List String) :
    List String :=
  lines.filterMap (c.payload? s k)

theorem Classifier.payload?_eq_some_iff {c : Classifier} {s : Severity} {k : SortKey}
    {line p : String} :
    c.payload? s k line = some p ↔ c.classify line = .ok (some ⟨s, k, p⟩) := by
  unfold Classifier.payload?
  split
  · next v hv =>
    obtain ⟨s', k', p'⟩ := v
    rw [hv]
    simp [and_assoc]
  · next hv => simp [hv]
  · next hv => simp [hv]

theorem Classifier.mem_payloads_iff {c : Classifier} {s : Severity} {k : SortKey}
    {lines : List String} {p : String} :
    p ∈ c.payloads s k lines ↔ ∃ line ∈ lines, c.classify line = .ok (some ⟨s, k, p⟩) := by
  rw [Classifier.payloads, List.mem_filterMap]
  simp only [payload?_eq_some_iff]

/-! ## The payloads under one key -/

/-- What stands under a key, at first `old`, after payloads have been entered one by one. -/
def Merge.held (rule : Merge) (ps : List String) (old : Option Payloads) : Option Payloads :=
  ps.foldl (fun held p => some (rule.combine p held)) old

namespace Merge

theorem held_cons (rule : Merge) (p : String) (ps : List String) (old : Option Payloads) :
    rule.held (p :: ps) old = rule.held ps (some (rule.combine p old)) := rfl

theorem held_some_ne_none (rule : Merge) (ps : List String) (xs : Payloads) :
    rule.held ps (some xs) ≠ none := by
  induction ps generalizing xs with
  | nil => exact Option.some_ne_none xs
  | cons p ps ih => exact ih _

theorem held_eq_none_iff {rule : Merge} {ps : List String} : rule.held ps none = none ↔ ps = [] := by
  cases ps with
  | nil => simp [held]
  | cons p ps => simp [held_cons, held_some_ne_none]

/-- Under `replace` the last payload stands for all. -/
theorem held_replace (ps : List String) (old : Option Payloads) :
    replace.held ps old = (ps.getLast?.map fun p => [p]).or old := by
  induction ps generalizing old with
  | nil => rfl
  | cons p ps ih =>
    rw [held_cons, ih]
    cases ps with
    | nil => rfl
    | cons q ps => simp [List.getLast?_cons]

/-- Under `accumulate` the payloads form the ascending set of all that were entered. -/
theorem held_accumulate {ps : List String} {old : Option Payloads} {xs : Payloads}
    (h : accumulate.held ps old = some xs) (hold : Sorted.Ascending byteOrder (old.getD [])) :
    Sorted.Ascending byteOrder xs ∧ ∀ p, p ∈ xs ↔ p ∈ old.getD [] ∨ p ∈ ps := by
  induction ps generalizing old with
  | nil =>
    have e : old = some xs := h
    subst e
    exact ⟨hold, fun p => by simp⟩
  | cons q ps ih =>
    obtain ⟨hasc, hmem⟩ := ih h (Sorted.ascending_insert q hold)
    refine ⟨hasc, fun p => ?_⟩
    rw [hmem p]
    show p ∈ Sorted.insert byteOrder q (old.getD []) ∨ p ∈ ps ↔ _
    rw [Sorted.mem_insert, List.mem_cons, or_assoc, or_left_comm]

/-- Under `accumulate` what stands under a key depends on the set of the entered payloads. -/
theorem held_accumulate_congr {ps qs : List String} (hmem : ∀ p, p ∈ ps ↔ p ∈ qs) :
    accumulate.held ps none = accumulate.held qs none := by
  -- nothing is held only if nothing was entered; lists that ascend are equal by their members
  cases hp : accumulate.held ps none with
  | none =>
    have e : ps = [] := held_eq_none_iff.1 hp
    subst e
    have e : qs = [] := List.eq_nil_iff_forall_not_mem.2 fun q hq =>
      List.not_mem_nil ((hmem q).2 hq)
    rw [e]
    rfl
  | some xs =>
    cases hq : accumulate.held qs none with
    | none =>
      have e : qs = [] := held_eq_none_iff.1 hq
      subst e
      have e : ps = [] := List.eq_nil_iff_forall_not_mem.2 fun p hm =>
        List.not_mem_nil ((hmem p).1 hm)
      rw [e] at hp
      cases hp
    | some ys =>
      obtain ⟨hx, hxm⟩ := held_accumulate hp List.Pairwise.nil
      obtain ⟨hy, hym⟩ := held_accumulate hq List.Pairwise.nil
      rw [hx.ext hy fun p => by rw [hxm, hym, hmem]]

/-- What stands under a key depends on the set of the entered payloads and, if payloads
    replace each other, on the last one. -/
theorem held_congr (rule : Merge) {ps qs : List String} (hmem : ∀ p, p ∈ ps ↔ p ∈ qs)
    (hlast : rule = .replace → ps.getLast? = qs.getLast?) :
    rule.held ps none = rule.held qs none := by
  cases rule with
  | replace => rw [held_replace, held_replace, hlast rfl]
  | accumulate => exact held_accumulate_congr hmem

end Merge

/-! ## Reports by their keys -/

namespace Report

theorem payloads?_empty (layout : Layout) (s : Severity) (k : SortKey) :
    (empty layout).payloads? s k = none := rfl

theorem find?_groups_eq_some_iff {r : Report} {s : Severity} {g : Group} :
    Sorted.find? Severity.order s r.groups = some g ↔ (s, g) ∈ r.groups :=
  (Sorted.mem_iff_find? r.wellFormed.severities).symm

/-- The entries of a severity are well formed, also if there are none. -/
theorem wellFormed_entries (r : Report) (s : Severity) : (r.entries s).WellFormed := by
  unfold entries
  cases hs : Sorted.find? Severity.order s r.groups with
  | none => exact Group.wellFormed_nil
  | some g => exact (r.wellFormed.groups (s, g) (find?_groups_eq_some_iff.1 hs)).2

theorem ascendingKeys_entries (r : Report) (s : Severity) :
    Sorted.AscendingKeys SortKey.order (r.entries s) := (r.wellFormed_entries s).keys

theorem find?_groups (r : Report) (s : Severity) :
    Sorted.find? Severity.order s r.groups = if r.entries s = [] then none else some (r.entries s) := by
  unfold entries
  cases hs : Sorted.find? Severity.order s r.groups with
  | none => rfl
  | some g =>
    have hg : g ≠ [] := (r.wellFormed.groups (s, g) (find?_groups_eq_some_iff.1 hs)).1
    rw [Option.getD_some, if_neg hg]

theorem payloads?_eq_some_iff {r : Report} {s : Severity} {k : SortKey} {ps : Payloads} :
    r.payloads? s k = some ps ↔ (k, ps) ∈ r.entries s :=
  (Sorted.mem_iff_find? (r.ascendingKeys_entries s)).symm

/-- A report is determined by what stands under its keys. -/
theorem eq_of_payloads?_eq {r r' : Report} (hlayout : r.layout = r'.layout)
    (hp : ∀ s k, r.payloads? s k = r'.payloads? s k) : r = r' := by
  have hentries : ∀ s, r.entries s = r'.entries s := fun s =>
    Sorted.eq_of_find?_eq (r.ascendingKeys_entries s) (r'.ascendingKeys_entries s) (hp s)
  have hgroups : r.groups = r'.groups := by
    refine Sorted.eq_of_find?_eq r.wellFormed.severities r'.wellFormed.severities fun s => ?_
    rw [find?_groups, find?_groups, hentries]
  obtain ⟨g, l, _⟩ := r
  obtain ⟨g', l', _⟩ := r'
  cases hgroups
  cases hlayout
  rfl

/-! ## Entering a verdict -/

theorem entries_enter (rules : Severity → Merge) (r : Report) (v : Verdict) (s : Severity) :
    (r.enter rules v).entries s =
      if s = v.severity then (r.entries s).enter (rules s) v.key v.payload else r.entries s := by
  unfold enter entries Groups.enter
  dsimp only
  rw [Sorted.find?_alter _ _ _ r.wellFormed.severities]
  by_cases hs : s = v.severity
  · rw [if_pos hs, if_pos hs, hs]
    rfl
  · rw [if_neg hs, if_neg hs]

theorem payloads?_enter (rules : Severity → Merge) (r : Report) (v : Verdict) (s : Severity)
    (k : SortKey) :
    (r.enter rules v).payloads? s k =
      if v.severity = s ∧ v.key = k then some ((rules s).combine v.payload (r.payloads? s k))
      else r.payloads? s k := by
  unfold payloads?
  rw [entries_enter]
  by_cases hs : s = v.severity
  · rw [if_pos hs, Group.enter, Sorted.find?_alter _ _ _ (r.ascendingKeys_entries s)]
    by_cases hk : k = v.key
    · rw [if_pos hk, if_pos ⟨hs.symm, hk.symm⟩, hk]
    · rw [if_neg hk, if_neg fun hsk => hk hsk.2.symm]
  · rw [if_neg hs, if_neg fun hsk => hs hsk.1.symm]

/-! ## Entering lines -/

/-- One line changes what stands under the key of its verdict, and nothing else. -/
theorem payloads?_addLine {c : Classifier} {r r' : Report} {line : String}
    (h : addLine c r line = .ok r') :
    r'.layout = r.layout ∧
      ∀ s k, r'.payloads? s k =
        (c.merge s).held (c.payload? s k line).toList (r.payloads? s k) := by
  unfold addLine at h
  split at h
  · cases h
  · next hv =>
    cases h
    refine ⟨rfl, fun s k => ?_⟩
    simp [Classifier.payload?, hv, Merge.held]
  · next v hv =>
    cases h
    refine ⟨rfl, fun s k => ?_⟩
    rw [payloads?_enter]
    by_cases hsk : v.severity = s ∧ v.key = k
    · simp [Classifier.payload?, hv, hsk, Merge.held]
    · simp [Classifier.payload?, hv, hsk, Merge.held]

/-- Lines entered one after another, by induction on the lines with the report generalized. -/
theorem payloads?_addLines {c : Classifier} {r r' : Report} {lines : List String}
    (h : addLines c r lines = .ok r') :
    r'.layout = r.layout ∧
      ∀ s k, r'.payloads? s k = (c.merge s).held (c.payloads s k lines) (r.payloads? s k) := by
  induction lines generalizing r with
  | nil =>
    cases h
    exact ⟨rfl, fun _ _ => rfl⟩
  | cons line rest ih =>
    unfold addLines at h
    split at h
    · cases h
    · next r₁ h₁ =>
      obtain ⟨hl₁, hp₁⟩ := payloads?_addLine h₁
      obtain ⟨hl, hp⟩ := ih h
      refine ⟨hl.trans hl₁, fun s k => ?_⟩
      -- the payload of the first line, if there is one, is folded in before the rest
      rw [hp, hp₁, Classifier.payloads, Classifier.payloads, List.filterMap_cons]
      cases c.payload? s k line with
      | none => rfl
      | some p => rfl

/-- Entering lines fails only on a line that the classifier rejects. -/
theorem exists_addLines_iff {c : Classifier} {r : Report} {lines : List String} :
    (∃ r', addLines c r lines = .ok r') ↔ ∀ line ∈ lines, ∃ v, c.classify line = .ok v := by
  induction lines generalizing r with
  | nil => simp [addLines]
  | cons line rest ih =>
    rw [List.forall_mem_cons]
    unfold addLines addLine
    cases hv : c.classify line with
    | error e => simp
    | ok v =>
      cases v with
      | none => simpa using ih
      | some v => simpa using ih

/-! ## Finished reports -/

section Finished

variable {c : Classifier} {log : LogLines} {r : Report}

theorem layout_of_build (h : build c log = .ok r) : r.layout = c.layout :=
  (payloads?_addLines h).1

theorem payloads?_of_build (h : build c log = .ok r) (s : Severity) (k : SortKey) :
    r.payloads? s k = (c.merge s).held (c.payloads s k log.lines) none :=
  (payloads?_addLines h).2 s k

theorem mem_entries_iff (h : build c log = .ok r) {s : Severity} {k : SortKey} {ps : Payloads} :
    (k, ps) ∈ r.entries s ↔ (c.merge s).held (c.payloads s k log.lines) none = some ps := by
  rw [← payloads?_eq_some_iff, payloads?_of_build h]

/-- The keys of a severity are the keys of its verdicts. -/
theorem exists_mem_entries_iff (h : build c log = .ok r) {s : Severity} {k : SortKey} :
    (∃ ps, (k, ps) ∈ r.entries s) ↔
      ∃ line ∈ log.lines, ∃ p, c.classify line = .ok (some ⟨s, k, p⟩) := by
  simp only [mem_entries_iff h]
  constructor
  · rintro ⟨ps, hps⟩
    have hne : c.payloads s k log.lines ≠ [] := fun e => by
      rw [Merge.held_eq_none_iff.2 e] at hps
      cases hps
    obtain ⟨p, hp⟩ := List.exists_mem_of_ne_nil _ hne
    obtain ⟨line, hline, hv⟩ := Classifier.mem_payloads_iff.1 hp
    exact ⟨line, hline, p, hv⟩
  · rintro ⟨line, hline, p, hv⟩
    have hp : p ∈ c.payloads s k log.lines := Classifier.mem_payloads_iff.2 ⟨line, hline, hv⟩
    apply Option.ne_none_iff_exists'.1
    intro hnone
    rw [Merge.held_eq_none_iff.1 hnone] at hp
    exact List.not_mem_nil hp

/-- Under `accumulate` a key has the ascending set of the payloads of its verdicts. -/
theorem payloads_of_accumulate (h : build c log = .ok r) {s : Severity}
    (hs : c.merge s = .accumulate) {k : SortKey} {ps : Payloads} (hps : (k, ps) ∈ r.entries s) :
    Sorted.Ascending byteOrder ps ∧
      ∀ p, p ∈ ps ↔ ∃ line ∈ log.lines, c.classify line = .ok (some ⟨s, k, p⟩) := by
  rw [mem_entries_iff h, hs] at hps
  obtain ⟨hasc, hmem⟩ := Merge.held_accumulate hps List.Pairwise.nil
  refine ⟨hasc, fun p => ?_⟩
  rw [hmem, ← Classifier.mem_payloads_iff]
  simp

/-- Under `replace` a key has the payload of the last of its verdicts. -/
theorem payloads_of_replace (h : build c log = .ok r) {s : Severity}
    (hs : c.merge s = .replace) {k : SortKey} {ps : Payloads} (hps : (k, ps) ∈ r.entries s) :
    ∃ p, (c.payloads s k log.lines).getLast? = some p ∧ ps = [p] := by
  rw [mem_entries_iff h, hs, Merge.held_replace, Option.or_none, Option.map_eq_some_iff] at hps
  obtain ⟨p, hp, e⟩ := hps
  exact ⟨p, hp, e.symm⟩

/-- A severity counts the distinct keys of its verdicts. -/
theorem count_of_build (h : build c log = .ok r) (s : Severity) :
    r.count s =
      {k | ∃ line ∈ log.lines, ∃ p, c.classify line = .ok (some ⟨s, k, p⟩)}.ncard := by
  have hnodup : ((r.entries s).map Prod.fst).Nodup :=
    (r.ascendingKeys_entries s).nodup
  -- the keys of a group are distinct, so its length is their number
  have hset : {k | ∃ line ∈ log.lines, ∃ p, c.classify line = .ok (some ⟨s, k, p⟩)} =
      ((r.entries s).map Prod.fst).toFinset := by
    ext k
    rw [Set.mem_ofPred_eq, ← exists_mem_entries_iff h]
    simp
  rw [hset, Set.ncard_coe_finset, List.toFinset_card_of_nodup hnodup, List.length_map]
  rfl

/-- A report is empty if no line is a verdict. -/
theorem isEmpty_iff (h : build c log = .ok r) :
    r.isEmpty = true ↔ ∀ line ∈ log.lines, ∀ v, c.classify line ≠ .ok (some v) := by
  rw [isEmpty, List.all_eq_true]
  constructor
  · intro hall line hline v hv
    obtain ⟨ps, hps⟩ := (exists_mem_entries_iff h).2 ⟨line, hline, v.payload, hv⟩
    have hne : r.entries v.severity ≠ [] := List.ne_nil_of_mem hps
    have hg : (v.severity, r.entries v.severity) ∈ r.groups := by
      rw [← find?_groups_eq_some_iff, find?_groups, if_neg hne]
    exact hne (List.isEmpty_iff.1 (hall _ hg))
  · rintro hnone ⟨s, g⟩ hg
    obtain ⟨⟨k, ps⟩, hps⟩ := List.exists_mem_of_ne_nil g (r.wellFormed.groups (s, g) hg).1
    have he : r.entries s = g := by
      rw [entries, find?_groups_eq_some_iff.2 hg, Option.getD_some]
    rw [← he] at hps
    obtain ⟨line, hline, p, hv⟩ := (exists_mem_entries_iff h).1 ⟨ps, hps⟩
    exact absurd hv (hnone line hline _)

end Finished

/-- A finished report contains exactly the verdicts of its log, in order. -/
theorem contents_of_build_ofText (c : Classifier) (text : String) (r : Report)
    (h : build c (LogLines.ofText text) = .ok r) :
    (∀ s,
      Sorted.AscendingKeys SortKey.order (r.entries s) ∧
      (∀ k, (∃ ps, (k, ps) ∈ r.entries s) ↔
        ∃ line ∈ rawLines text, ∃ p, c.classify line = .ok (some ⟨s, k, p⟩)) ∧
      (∀ k ps, (k, ps) ∈ r.entries s →
        ps ≠ [] ∧
        (c.merge s = .accumulate →
          Sorted.Ascending byteOrder ps ∧
          ∀ p, p ∈ ps ↔ ∃ line ∈ rawLines text, c.classify line = .ok (some ⟨s, k, p⟩)) ∧
        (c.merge s = .replace →
          ∃ p, ps = [p] ∧
            ∃ line ∈ rawLines text, c.classify line = .ok (some ⟨s, k, p⟩))) ∧
      r.count s =
        {k | ∃ line ∈ rawLines text, ∃ p, c.classify line = .ok (some ⟨s, k, p⟩)}.ncard) ∧
    (∀ g ∈ r.groups, g.2 ≠ []) ∧
    (r.isEmpty = true ↔ ∀ line ∈ rawLines text, ∀ v, c.classify line ≠ .ok (some v)) := by
  have hlines : ∀ line, line ∈ (LogLines.ofText text).lines ↔ line ∈ rawLines text :=
    fun _ => mem_keepLast
  -- dropping repetitions changes no set of lines
  simp only [← hlines]
  refine ⟨fun s => ⟨?_, ?_, ?_, count_of_build h s⟩, ?_, isEmpty_iff h⟩
  · exact r.ascendingKeys_entries s
  · exact fun k => exists_mem_entries_iff h
  · intro k ps hps
    have hne : ps ≠ [] := ((r.wellFormed_entries s).payloads (k, ps) hps).nonempty
    refine ⟨hne, fun hs => payloads_of_accumulate h hs hps, fun hs => ?_⟩
    obtain ⟨p, hlast, e⟩ := payloads_of_replace h hs hps
    exact ⟨p, e, Classifier.mem_payloads_iff.1 (List.mem_of_getLast? hlast)⟩
  · exact fun g hg => (r.wellFormed.groups g hg).1

/-- A log in which one message replaces another and a failing line has two messages. -/
theorem contents_of_checker_log :
    let text := "[Checker] Pass! 1 (old)\n[Checker] Fail! 5 (x)\nnoise\n" ++
      "[Checker] Fail! 5 (a )\n[Checker] Pass! 1 (new)\n"
    ∃ r, build Checker.classifier (LogLines.ofText text) = .ok r ∧
      r.entries .pass = [(.number 1, ["new"])] ∧ r.entries .fail = [(.number 5, ["a", "x"])] ∧
      ∀ p, p ∈ ["a", "x"] ↔ ∃ line ∈ rawLines text,
        Checker.classifier.classify line = .ok (some ⟨.fail, .number 5, p⟩) := by
  intro text
  have h : build Checker.classifier (LogLines.ofText text) =
      .ok ⟨[(.pass, [(.number 1, ["new"])]), (.fail, [(.number 5, ["a", "x"])])], .keyed,
        by decide +kernel⟩ := by
    decide +kernel
  obtain ⟨hs, -, -⟩ := contents_of_build_ofText Checker.classifier text _ h
  obtain ⟨-, -, hps, -⟩ := hs .fail
  have hmem : (SortKey.number 5, ["a", "x"]) ∈ [(SortKey.number 5, ["a", "x"])] :=
    List.mem_cons_self
  exact ⟨_, h, rfl, rfl, ((hps _ _ hmem).2.1 rfl).2⟩

end Report

end CompilerFuzz.Triage
