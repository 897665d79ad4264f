/-
  CompilerFuzz.Proofs.Triage.Printed

  What a report of the tagged dialect prints. Where every payload counts, the payloads of one
  severity ascend by their key and under one key by their bytes (`Report.pairwise_bodies`).
  In the tagged dialect a line and its severity and text determine each other, and so do a
  text and its key (`Tagged.Keyed`). So the texts of one severity are those of the log, each
  of them once, and a line is printed for every distinct line with a tag.
-/
import CompilerFuzz.Proofs.Triage.Verdicts
import CompilerFuzz.Triage.Render
import CompilerFuzz.Triage.Tagged

namespace CompilerFuzz.Triage

open CompilerFuzz.Text

/-! ## The payloads of one severity -/

namespace Report

/-- The payloads of one severity, in report order. -/
def bodies (r : Report) (s : Severity) : List String := (r.entries s).flatMap Prod.snd

section Bodies

variable {c : Classifier} {log : LogLines} {r : Report} {s : Severity}

theorem mem_bodies_iff (h : build c log = .ok r) (hs : c.merge s = .accumulate) {p : String} :
    p ∈ r.bodies s ↔ ∃ line ∈ log.lines, ∃ k, c.classify line = .ok (some ⟨s, k, p⟩) := by
  rw [bodies, List.mem_flatMap]
  constructor
  · rintro ⟨⟨k, ps⟩, hps, hp⟩
    obtain ⟨line, hline, hv⟩ := ((payloads_of_accumulate h hs hps).2 p).1 hp
    exact ⟨line, hline, k, hv⟩
  · rintro ⟨line, hline, k, hv⟩
    obtain ⟨ps, hps⟩ := (exists_mem_entries_iff h).2 ⟨line, hline, p, hv⟩
    exact ⟨(k, ps), hps, ((payloads_of_accumulate h hs hps).2 p).2 ⟨line, hline, hv⟩⟩

/-- Payloads ascend by their key, and under one key by their bytes. -/
theorem pairwise_bodies (h : build c log = .ok r) (hs : c.merge s = .accumulate) :
    (r.bodies s).Pairwise fun p q => ∃ j k,
      (∃ line, c.classify line = .ok (some ⟨s, j, p⟩)) ∧
      (∃ line, c.classify line = .ok (some ⟨s, k, q⟩)) ∧
      (SortKey.order j k = .lt ∨ j = k ∧ byteOrder p q = .lt) := by
  have hverdict : ∀ {k ps}, (k, ps) ∈ r.entries s → ∀ p ∈ ps,
      ∃ line, c.classify line = .ok (some ⟨s, k, p⟩) := by
    intro k ps hps p hp
    obtain ⟨line, -, hv⟩ := ((payloads_of_accumulate h hs hps).2 p).1 hp
    exact ⟨line, hv⟩
  refine List.pairwise_flatMap.2 ⟨?_, ?_⟩
  · rintro ⟨k, ps⟩ hps
    refine (payloads_of_accumulate h hs hps).1.imp_of_mem fun hp hq hlt => ?_
    exact ⟨k, k, hverdict hps _ hp, hverdict hps _ hq, .inr ⟨rfl, hlt⟩⟩
  · have hkeys := List.pairwise_map.1 (r.ascendingKeys_entries s)
    refine hkeys.imp_of_mem fun {e e'} he he' hlt p hp q hq => ?_
    exact ⟨e.1, e'.1, hverdict he p hp, hverdict he' q hq, .inl hlt⟩

end Bodies

end Report

/-! ## Lines with a tag -/

namespace Tagged

/-- The key under which the verdict line with the given text stands. -/
inductive Keyed : Severity → String → SortKey → Prop
  | pass {p} : Keyed .pass p (.text p)
  | warn {p} : Keyed .warn p (.text p)
  | fail {p n} (h : construct? (line .fail p).toList = some n) : Keyed .fail p (.number n)

theorem Keyed.unique {s : Severity} {p : String} {j k : SortKey} (hj : Keyed s p j)
    (hk : Keyed s p k) : j = k := by
  cases hj with
  | pass =>
    cases hk
    rfl
  | warn =>
    cases hk
    rfl
  | fail hm =>
    cases hk with
    | fail hn => rw [Option.some.inj (hm.symm.trans hn)]

theorem classifier_classify (text : String) : classifier.classify text = classify text := rfl

theorem tag_append_inj {s s' : Severity} {cs cs' : List Char} (h : tag s ++ cs = tag s' ++ cs') :
    s = s' ∧ cs = cs' := by
  cases s <;> cases s' <;> simp [tag, Severity.label] at h ⊢ <;> exact h

theorem toList_line (s : Severity) (p : String) : (line s p).toList = tag s ++ p.toList :=
  String.toList_ofList

theorem line_inj {s s' : Severity} {p p' : String} (h : line s p = line s' p') :
    s = s' ∧ p = p' := by
  have hchars := congrArg String.toList h
  rw [toList_line, toList_line] at hchars
  obtain ⟨hs, hp⟩ := tag_append_inj hchars
  exact ⟨hs, String.toList_inj.1 hp⟩

theorem after?_tag_line {s t : Severity} {p : String} :
    after? (tag t) (line s p).toList = if t = s then some p.toList else none := by
  rw [toList_line]
  split
  · next h => rw [h, after?_eq_some_iff]
  · next h =>
    cases hafter : after? (tag t) (tag s ++ p.toList) with
    | none => rfl
    | some rest => exact absurd (tag_append_inj (after?_eq_some_iff.1 hafter)).1.symm h

theorem eq_line_of_after? {s : Severity} {text : String} {rest : List Char}
    (h : after? (tag s) text.toList = some rest) : text = line s (String.ofList rest) := by
  rw [after?_eq_some_iff] at h
  rw [line, String.toList_ofList, ← h, String.ofList_toList]

/-- A verdict of the tagged dialect tells its line, and stands under the key of its text. -/
theorem eq_line_of_classify {text : String} {s : Severity} {k : SortKey} {p : String}
    (h : classify text = .ok (some ⟨s, k, p⟩)) : text = line s p ∧ Keyed s p k := by
  unfold classify at h
  dsimp only at h
  -- the tags are tried in this order; a failure also needs the number of its construct
  split at h
  · next hpass =>
    cases h
    exact ⟨eq_line_of_after? hpass, .pass⟩
  · next hwarn =>
    cases h
    exact ⟨eq_line_of_after? hwarn, .warn⟩
  · next hfail =>
    split at h
    · next n hn =>
      cases h
      have hline := eq_line_of_after? hfail
      rw [hline] at hn
      exact ⟨hline, .fail hn⟩
    · cases h
  · cases h

theorem classify_of_keyed {s : Severity} {p : String} {k : SortKey} (h : Keyed s p k) :
    classify (line s p) = .ok (some ⟨s, k, p⟩) := by
  unfold classify
  dsimp only
  rw [after?_tag_line, after?_tag_line, after?_tag_line]
  cases h with
  | pass => simp
  | warn => simp
  | fail hn => simp [hn]

/-- A line with a tag that is accepted is a verdict. -/
theorem keyed_of_classify {s : Severity} {p : String} {v : Option Verdict}
    (h : classify (line s p) = .ok v) : ∃ k, Keyed s p k := by
  cases s with
  | pass => exact ⟨_, .pass⟩
  | warn => exact ⟨_, .warn⟩
  | fail =>
    cases hn : construct? (line .fail p).toList with
    | some n => exact ⟨_, .fail hn⟩
    | none =>
      unfold classify at h
      dsimp only at h
      rw [after?_tag_line, after?_tag_line, after?_tag_line] at h
      simp [hn] at h

end Tagged

namespace Report

/-! ## Reports of the tagged dialect -/

section Tagged

variable {log : LogLines} {r : Report}

/-- The texts of a severity are those of the lines with its tag. -/
theorem mem_bodies_tagged_iff (h : build Tagged.classifier log = .ok r) {s : Severity}
    {p : String} : p ∈ r.bodies s ↔ Tagged.line s p ∈ log.lines := by
  rw [mem_bodies_iff h rfl]
  constructor
  · rintro ⟨line, hline, k, hv⟩
    obtain ⟨rfl, -⟩ := Tagged.eq_line_of_classify hv
    exact hline
  · intro hline
    -- the log has a report, so no line in it was rejected
    obtain ⟨v, hv⟩ := exists_addLines_iff.1 ⟨r, h⟩ _ hline
    rw [Tagged.classifier_classify] at hv
    obtain ⟨k, hk⟩ := Tagged.keyed_of_classify hv
    refine ⟨_, hline, k, ?_⟩
    rw [Tagged.classifier_classify]
    exact Tagged.classify_of_keyed hk

theorem pairwise_bodies_tagged (h : build Tagged.classifier log = .ok r) (s : Severity) :
    (r.bodies s).Pairwise fun p q => ∃ j k, Tagged.Keyed s p j ∧ Tagged.Keyed s q k ∧
      (SortKey.order j k = .lt ∨ j = k ∧ byteOrder p q = .lt) := by
  refine (pairwise_bodies h rfl).imp fun {p q} hpq => ?_
  obtain ⟨j, k, ⟨_, hj⟩, ⟨_, hk⟩, hlt⟩ := hpq
  exact ⟨j, k, (Tagged.eq_line_of_classify hj).2, (Tagged.eq_line_of_classify hk).2, hlt⟩

/-- Texts that are their own keys ascend by their bytes. -/
theorem ascending_bodies_tagged (h : build Tagged.classifier log = .ok r) {s : Severity}
    (hs : s ≠ .fail) : Sorted.Ascending byteOrder (r.bodies s) := by
  refine (pairwise_bodies_tagged h s).imp fun {p q} hpq => ?_
  obtain ⟨j, k, hj, hk, hlt | ⟨-, hlt⟩⟩ := hpq
  · -- both keys are the texts, and texts compare by their bytes
    cases hj with
    | pass =>
      cases hk
      exact hlt
    | warn =>
      cases hk
      exact hlt
    | fail => exact absurd rfl hs
  · exact hlt

/-- No text is printed twice. -/
theorem nodup_bodies_tagged (h : build Tagged.classifier log = .ok r) (s : Severity) :
    (r.bodies s).Nodup := by
  refine (pairwise_bodies_tagged h s).imp ?_
  rintro p _ ⟨j, k, hj, hk, hlt⟩ rfl
  obtain rfl := hj.unique hk
  rcases hlt with hlt | ⟨-, hlt⟩ <;> exact Sorted.not_lt_of_lt hlt hlt

/-- The texts of fail lines ascend by the numbers of their constructs, those of one construct
    by their bytes. -/
theorem pairwise_bodies_fail (h : build Tagged.classifier log = .ok r) :
    (r.bodies .fail).Pairwise fun p q => ∃ m n,
      Tagged.construct? (Tagged.line .fail p).toList = some m ∧
      Tagged.construct? (Tagged.line .fail q).toList = some n ∧
      (m < n ∨ m = n ∧ byteOrder p q = .lt) := by
  refine (pairwise_bodies_tagged h .fail).imp fun {p q} hpq => ?_
  obtain ⟨j, k, hj, hk, hlt⟩ := hpq
  cases hj with
  | @fail _ m hm =>
    cases hk with
    | @fail _ n hn =>
      refine ⟨m, n, hm, hn, ?_⟩
      rcases hlt with hlt | ⟨hmn, hlt⟩
      · exact .inl (Nat.compare_eq_lt.1 hlt)
      · exact .inr ⟨SortKey.number.inj hmn, hlt⟩

theorem exists_construct_of_mem_bodies (h : build Tagged.classifier log = .ok r) {p : String}
    (hp : p ∈ r.bodies .fail) : ∃ n, Tagged.construct? (Tagged.line .fail p).toList = some n := by
  obtain ⟨line, -, k, hv⟩ := (mem_bodies_iff h rfl).1 hp
  cases (Tagged.eq_line_of_classify hv).2 with
  | @fail _ n hn => exact ⟨n, hn⟩

end Tagged

/-! ## What is printed -/

/-- In the flat layout every payload has a line of its own. -/
theorem printedLines_of_flat {r : Report} (h : r.layout = .flat) (mode : ColorMode) :
    r.printedLines mode = Severity.all.flatMap fun s => (r.bodies s).map (printedLine mode s) := by
  unfold printedLines bodies
  rw [h]
  simp only [List.map_flatMap]
  rfl

theorem count_newline_printedLine (mode : ColorMode) (s : Severity) {body : String}
    (h : '\n' ∉ body.toList) : (printedLine mode s body).toList.count '\n' = 1 := by
  have hlabel : (mode.label s).toList.count '\n' = 0 := by cases mode <;> cases s <;> decide +kernel
  unfold printedLine
  simp only [String.toList_append, List.count_append, hlabel, List.count_eq_zero.2 h]
  decide +kernel

theorem count_newline_join {lines : List String} (h : ∀ l ∈ lines, l.toList.count '\n' = 1) :
    (String.join lines).toList.count '\n' = lines.length := by
  induction lines with
  | nil => rfl
  | cons l lines ih =>
    rw [List.forall_mem_cons] at h
    rw [String.join_cons, String.toList_append, List.count_append, h.1, ih h.2, List.length_cons,
      Nat.add_comm]

/-- The report as lines of the tagged dialect. -/
def taggedLines (r : Report) : List String := r.written fun s _ p => Tagged.line s p

theorem taggedLines_eq (r : Report) :
    r.taggedLines = Severity.all.flatMap fun s => (r.bodies s).map (Tagged.line s) := by
  unfold taggedLines written bodies
  simp only [List.map_flatMap]

theorem mem_taggedLines_iff {log : LogLines} {r : Report} (h : build Tagged.classifier log = .ok r)
    {line : String} : line ∈ r.taggedLines ↔ line ∈ log.lines ∧ ∃ s p, line = Tagged.line s p := by
  rw [taggedLines_eq]
  simp only [List.mem_flatMap, List.mem_map, Severity.mem_all, true_and, mem_bodies_tagged_iff h]
  constructor
  · rintro ⟨s, p, hline, rfl⟩
    exact ⟨hline, s, p, rfl⟩
  · rintro ⟨hline, s, p, rfl⟩
    exact ⟨s, p, hline, rfl⟩

theorem nodup_taggedLines {log : LogLines} {r : Report} (h : build Tagged.classifier log = .ok r) :
    r.taggedLines.Nodup := by
  rw [taggedLines_eq]
  refine List.nodup_flatMap.2 ⟨fun s _ => ?_, ?_⟩
  · exact (nodup_bodies_tagged h s).map fun p q hpq => (Tagged.line_inj hpq).2
  · -- a line tells its severity, so lines of two severities differ
    have hall : Severity.all.Nodup := by decide
    refine hall.imp fun {s s'} hne line hline hline' => ?_
    obtain ⟨p, -, rfl⟩ := List.mem_map.1 hline
    obtain ⟨q, -, hq⟩ := List.mem_map.1 hline'
    exact hne (Tagged.line_inj hq).1.symm

/-- There is a line for each distinct line of the log that has a tag. -/
theorem length_taggedLines {log : LogLines} {r : Report} (h : build Tagged.classifier log = .ok r) :
    r.taggedLines.length = {line | line ∈ log.lines ∧ ∃ s p, line = Tagged.line s p}.ncard := by
  have hset : {line | line ∈ log.lines ∧ ∃ s p, line = Tagged.line s p} =
      r.taggedLines.toFinset := by
    ext line
    rw [Set.mem_ofPred_eq, Finset.mem_coe, List.mem_toFinset, mem_taggedLines_iff h]
  -- the lines are distinct, so their number is that of their set
  rw [hset, Set.ncard_coe_finset, List.toFinset_card_of_nodup (nodup_taggedLines h)]

/-- The texts of a tagged report have no newline in them, so a line printed stays one line. -/
theorem count_newline_render {text : String} {r : Report}
    (h : build Tagged.classifier (LogLines.ofText text) = .ok r) (mode : ColorMode) :
    (r.render mode).toList.count '\n' = r.taggedLines.length := by
  have hone : ∀ line ∈ r.printedLines mode, line.toList.count '\n' = 1 := by
    rw [printedLines_of_flat (layout_of_build h)]
    simp only [List.mem_flatMap, List.mem_map]
    rintro _ ⟨s, -, p, hp, rfl⟩
    have hline : Tagged.line s p ∈ rawLines text := mem_keepLast.1 ((mem_bodies_tagged_iff h).1 hp)
    have hnone := newline_notMem_of_mem_rawLines hline
    rw [Tagged.toList_line] at hnone
    exact count_newline_printedLine mode s fun hm => hnone (List.mem_append_right _ hm)
  have hlength : (r.printedLines mode).length = r.taggedLines.length := by
    rw [printedLines_of_flat (layout_of_build h), taggedLines_eq]
    simp only [List.length_flatMap, List.length_map]
  rw [← hlength]
  exact count_newline_join hone

theorem printedLine_eq {mode : ColorMode} {s : Severity} {heading : String}
    (h : "[" ++ mode.label s ++ "] " = heading) :
    printedLine mode s = fun body => heading ++ body ++ "\n" := by
  rw [← h]
  rfl

theorem render_of_flat {r : Report} (h : r.layout = .flat) (mode : ColorMode) :
    r.render mode = String.join ((r.bodies .pass).map (printedLine mode .pass) ++
      (r.bodies .warn).map (printedLine mode .warn) ++
      (r.bodies .fail).map (printedLine mode .fail)) := by
  unfold render
  rw [printedLines_of_flat h]
  simp [Severity.all]

/-- If the log has a report in the tagged dialect, the report prints the distinct texts of the
    pass lines, ascending by their bytes, then those of the warn lines likewise, then those of
    the fail lines, ascending by the numbers of their constructs and under one number by their
    bytes: a line for each, and so one for each distinct line of the log that has a tag. Colour
    wraps the word in the brackets. -/
theorem render_tagged {text : String} {r : Report}
    (h : build Tagged.classifier (LogLines.ofText text) = .ok r) :
    ∃ passes warns fails : List String,
      (Sorted.Ascending byteOrder passes ∧
        ∀ p, p ∈ passes ↔ Tagged.line .pass p ∈ rawLines text) ∧
      (Sorted.Ascending byteOrder warns ∧
        ∀ p, p ∈ warns ↔ Tagged.line .warn p ∈ rawLines text) ∧
      (fails.Pairwise (fun p q => ∃ m n,
          Tagged.construct? (Tagged.line .fail p).toList = some m ∧
          Tagged.construct? (Tagged.line .fail q).toList = some n ∧
          (m < n ∨ m = n ∧ byteOrder p q = .lt)) ∧
        (∀ p ∈ fails, ∃ n, Tagged.construct? (Tagged.line .fail p).toList = some n) ∧
        ∀ p, p ∈ fails ↔ Tagged.line .fail p ∈ rawLines text) ∧
      r.render .plain = String.join (passes.map (fun p => "[pass] " ++ p ++ "\n") ++
        warns.map (fun p => "[warn] " ++ p ++ "\n") ++
        fails.map (fun p => "[fail] " ++ p ++ "\n")) ∧
      r.render .ansi = String.join
        (passes.map (fun p => "[\x1b[1;32mpass\x1b[0m] " ++ p ++ "\n") ++
          warns.map (fun p => "[\x1b[1;33mwarn\x1b[0m] " ++ p ++ "\n") ++
          fails.map (fun p => "[\x1b[1;31mfail\x1b[0m] " ++ p ++ "\n")) ∧
      ∀ mode, (r.render mode).toList.count '\n' =
        {line | line ∈ rawLines text ∧ ∃ s p, line = Tagged.line s p}.ncard := by
  have hmem : ∀ s p, p ∈ r.bodies s ↔ Tagged.line s p ∈ rawLines text := fun s p =>
    (mem_bodies_tagged_iff h).trans mem_keepLast
  have hflat : r.layout = .flat := layout_of_build h
  refine ⟨r.bodies .pass, r.bodies .warn, r.bodies .fail,
    ⟨ascending_bodies_tagged h nofun, hmem .pass⟩, ⟨ascending_bodies_tagged h nofun, hmem .warn⟩,
    ⟨pairwise_bodies_fail h, fun p => exists_construct_of_mem_bodies h, hmem .fail⟩, ?_, ?_,
    fun mode => ?_⟩
  · have hpass : "[" ++ ColorMode.plain.label .pass ++ "] " = "[pass] " := by decide +kernel
    have hwarn : "[" ++ ColorMode.plain.label .warn ++ "] " = "[warn] " := by decide +kernel
    have hfail : "[" ++ ColorMode.plain.label .fail ++ "] " = "[fail] " := by decide +kernel
    rw [render_of_flat hflat, printedLine_eq hpass, printedLine_eq hwarn, printedLine_eq hfail]
  · have hpass : "[" ++ ColorMode.ansi.label .pass ++ "] " = "[\x1b[1;32mpass\x1b[0m] " := by
      decide +kernel
    have hwarn : "[" ++ ColorMode.ansi.label .warn ++ "] " = "[\x1b[1;33mwarn\x1b[0m] " := by
      decide +kernel
    have hfail : "[" ++ ColorMode.ansi.label .fail ++ "] " = "[\x1b[1;31mfail\x1b[0m] " := by
      decide +kernel
    rw [render_of_flat hflat, printedLine_eq hpass, printedLine_eq hwarn, printedLine_eq hfail]
  · -- a line of the report stands for a distinct line of the log, so counting either will do
    have hset : {line | line ∈ rawLines text ∧ ∃ s p, line = Tagged.line s p} =
        {line | line ∈ (LogLines.ofText text).lines ∧ ∃ s p, line = Tagged.line s p} :=
      Set.ext fun line => and_congr_left' mem_keepLast.symm
    rw [hset, ← length_taggedLines h]
    exact count_newline_render h mode

/-- Two fail lines share their construct, one line comes twice: five lines are printed. -/
theorem render_of_shared_construct :
    let text := "fail: b Construct: 7\npass: z\nwarn: w\nfail: a Construct: 007\n" ++
      "fail: c Construct: 2\r\nnoise\npass: z\n"
    ∃ r, build Tagged.classifier (LogLines.ofText text) = .ok r ∧
      r.render .plain = "[pass] z\n[warn] w\n[fail] c Construct: 2\n" ++
        "[fail] a Construct: 007\n[fail] b Construct: 7\n" ∧
      {line | line ∈ rawLines text ∧ ∃ s p, line = Tagged.line s p}.ncard = 5 := by
  intro text
  have h : build Tagged.classifier (LogLines.ofText text) =
      .ok ⟨[(.pass, [(.text "z", ["z"])]), (.warn, [(.text "w", ["w"])]),
        (.fail, [(.number 2, ["c Construct: 2"]),
          (.number 7, ["a Construct: 007", "b Construct: 7"])])], .flat, by decide +kernel⟩ := by
    decide +kernel
  obtain ⟨-, -, -, -, -, -, -, -, hcount⟩ := render_tagged h
  refine ⟨_, h, by decide +kernel, ?_⟩
  rw [← hcount .plain]
  decide +kernel

end Report

end CompilerFuzz.Triage
