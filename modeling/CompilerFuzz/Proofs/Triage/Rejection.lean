/-
  CompilerFuzz.Proofs.Triage.Rejection

  One rejected line rejects the whole log, and which one the error is about. Lines are entered
  up to the first that is rejected (`Report.addLines_eq_error_iff`), but they are entered where
  they stand last. So the error is about the rejected line whose last occurrence comes before
  those of all other rejected lines (`Classifier.FirstRejected`), which need not be the first
  rejected line of the log. The checker dialect rejects nothing. A log file also has no report
  if it gives no text (`Unreadable`); one that is not there is a log without lines.
-/
import CompilerFuzz.Proofs.Triage.Constructs
import CompilerFuzz.Proofs.Triage.Deduplication
import CompilerFuzz.Proofs.Triage.RoundTrip
import CompilerFuzz.Triage.Dialect

namespace CompilerFuzz.Triage

open CompilerFuzz.Files CompilerFuzz.Text

/-- Of all rejected lines, `line` is the one whose last occurrence comes first: it does not
    come again, and every rejected line before it does. -/
def Classifier.FirstRejected (c : Classifier) (lines : List String) (line : String) : Prop :=
  ∃ earlier later, lines = earlier ++ line :: later ∧ line ∉ later ∧ c.Rejects line ∧
    ∀ l ∈ earlier, c.Rejects l → l ∈ line :: later

/-! ## Last occurrences -/

/-- Before the last occurrence of a line those lines stay that do not come again. -/
theorem keepLast_split {line : String} {later : List String} (h : line ∉ later)
    (earlier : List String) :
    keepLast (earlier ++ line :: later) =
      (keepLast earlier).filter (· ∉ line :: later) ++ line :: keepLast later := by
  rw [keepLast_append, keepLast_cons, if_neg h]

namespace Report

/-! ## The first rejected line -/

section AddLines

variable {c : Classifier} {r : Report} {line : String} {rest : List String} {e : TriageError}

theorem addLines_cons_of_error (h : c.classify line = .error e) :
    addLines c r (line :: rest) = .error e := by
  unfold addLines addLine
  rw [h]

/-- A line that is not rejected may change the report, and entering goes on behind it. -/
theorem addLines_cons_of_ok {v : Option Verdict} (h : c.classify line = .ok v) :
    ∃ r', addLines c r (line :: rest) = addLines c r' rest := by
  cases v with
  | none => exact ⟨r, by rw [addLines, addLine, h]⟩
  | some v => exact ⟨r.enter c.merge v, by rw [addLines, addLine, h]⟩

end AddLines

/-- Entering lines fails on the first line that is rejected. -/
theorem addLines_eq_error_iff {c : Classifier} {r : Report} {lines : List String}
    {e : TriageError} :
    addLines c r lines = .error e ↔
      ∃ before line after, lines = before ++ line :: after ∧ c.classify line = .error e ∧
        ∀ l ∈ before, ¬ c.Rejects l := by
  induction lines generalizing r with
  | nil => simp [addLines]
  | cons x rest ih =>
    cases hx : c.classify x with
    | error e' =>
      -- this line ends it, and no line before any other one may be rejected
      rw [addLines_cons_of_error hx]
      constructor
      · intro h
        cases h
        exact ⟨[], x, rest, rfl, hx, fun _ hl => absurd hl List.not_mem_nil⟩
      · rintro ⟨before, line, after, hsplit, hline, hbefore⟩
        cases before with
        | nil =>
          obtain ⟨rfl, rfl⟩ := List.cons.inj hsplit
          rw [Except.error.inj (hx.symm.trans hline)]
        | cons y before =>
          obtain ⟨rfl, -⟩ := List.cons.inj hsplit
          exact absurd ⟨e', hx⟩ (hbefore x List.mem_cons_self)
    | ok v =>
      -- the report has changed, but which line is rejected does not depend on it
      have hnot : ¬ c.Rejects x := Classifier.not_rejects_iff.2 ⟨v, hx⟩
      obtain ⟨r', hnext⟩ : ∃ r', addLines c r (x :: rest) = addLines c r' rest :=
        addLines_cons_of_ok hx
      rw [hnext, ih]
      constructor
      · rintro ⟨before, line, after, rfl, hline, hbefore⟩
        exact ⟨x :: before, line, after, rfl, hline, List.forall_mem_cons.2 ⟨hnot, hbefore⟩⟩
      · rintro ⟨before, line, after, hsplit, hline, hbefore⟩
        cases before with
        | nil =>
          obtain ⟨rfl, rfl⟩ := List.cons.inj hsplit
          exact absurd ⟨e, hline⟩ hnot
        | cons y before =>
          obtain ⟨rfl, rfl⟩ := List.cons.inj hsplit
          exact ⟨before, line, after, rfl, hline, (List.forall_mem_cons.1 hbefore).2⟩

/-- Of the distinct lines the first that is rejected is the one whose last occurrence in the log
    comes first. -/
theorem firstRejected_iff_keepLast {c : Classifier} {lines : List String} {line : String} :
    c.FirstRejected lines line ↔
      ∃ before after, keepLast lines = before ++ line :: after ∧ c.Rejects line ∧
        ∀ l ∈ before, ¬ c.Rejects l := by
  constructor
  · rintro ⟨earlier, later, rfl, hlast, hline, hearlier⟩
    refine ⟨_, _, keepLast_split hlast earlier, hline, fun l hl hrej => ?_⟩
    obtain ⟨hl, hnot⟩ := List.mem_filter.1 hl
    exact of_decide_eq_true hnot (hearlier l (mem_keepLast.1 hl) hrej)
  · rintro ⟨before, after, hsplit, hline, hbefore⟩
    have hmem : line ∈ lines := by
      rw [← mem_keepLast, hsplit]
      exact List.mem_append_right _ List.mem_cons_self
    obtain ⟨earlier, later, rfl, hlast⟩ := exists_last_occurrence hmem
    refine ⟨earlier, later, rfl, hlast, hline, fun l hl hrej => ?_⟩
    -- the line is kept once, so the two ways to cut the distinct lines at it are one
    have hnodup := nodup_keepLast (earlier ++ line :: later)
    rw [hsplit] at hnodup
    have hnotafter : line ∉ after := (List.nodup_cons.1 (List.nodup_append.1 hnodup).2.1).1
    have hnotbefore : line ∉ before := fun hm =>
      (List.nodup_append.1 hnodup).2.2 line hm line List.mem_cons_self rfl
    obtain ⟨hsame, -, -⟩ := (List.append_cons_inj_of_notMem hnotbefore hnotafter).1
      (hsplit.symm.trans (keepLast_split hlast earlier))
    by_contra hnot
    refine hbefore l ?_ hrej
    rw [hsame]
    exact List.mem_filter.2 ⟨mem_keepLast.2 hl, decide_eq_true hnot⟩

theorem build_eq_error_iff {c : Classifier} {text : String} {e : TriageError} :
    build c (LogLines.ofText text) = .error e ↔
      ∃ line, c.FirstRejected (rawLines text) line ∧ c.classify line = .error e := by
  unfold build LogLines.ofText
  simp only [addLines_eq_error_iff, firstRejected_iff_keepLast]
  constructor
  · rintro ⟨before, line, after, hsplit, hline, hbefore⟩
    exact ⟨line, ⟨before, after, hsplit, ⟨e, hline⟩, hbefore⟩, hline⟩
  · rintro ⟨line, ⟨before, after, hsplit, -, hbefore⟩, hline⟩
    exact ⟨before, line, after, hsplit, hline, hbefore⟩

/-- One rejected line rejects the whole log, wherever it stands, and the error is about the
    rejected line whose last occurrence comes first. In the tagged dialect it carries that line,
    and there is one if the first digits behind a mark in some fail line are missing or make no
    number of 64 bits. The checker dialect rejects no log. -/
theorem build_rejects (c : Classifier) (text : String) :
    ((∃ e, build c (LogLines.ofText text) = .error e) ↔ ∃ line ∈ rawLines text, c.Rejects line) ∧
    (∀ e, build c (LogLines.ofText text) = .error e ↔
      ∃ line, c.FirstRejected (rawLines text) line ∧ c.classify line = .error e) ∧
    (∀ e, build Tagged.classifier (LogLines.ofText text) = .error e ↔
      ∃ line, Tagged.classifier.FirstRejected (rawLines text) line ∧
        e = .malformedFailLine line) ∧
    ((∃ e, build Tagged.classifier (LogLines.ofText text) = .error e) ↔
      ∃ p, Tagged.line .fail p ∈ rawLines text ∧
        ¬ ∃ i ds, Tagged.FirstNumber (Tagged.line .fail p).toList i ds ∧ Tagged.IsWord ds) ∧
    ∃ r, build Checker.classifier (LogLines.ofText text) = .ok r := by
  refine ⟨exists_build_eq_error_iff, fun e => build_eq_error_iff, fun e => ?_, ?_,
    exists_build_checker _⟩
  · rw [build_eq_error_iff]
    refine exists_congr fun line => and_congr_right fun hfirst => ?_
    obtain ⟨-, -, -, -, ⟨e', he'⟩, -⟩ := hfirst
    -- the error of a rejected line is the one that carries it
    rw [Tagged.classifier_classify] at he' ⊢
    obtain rfl := (Tagged.classify_eq_error_iff.1 he').1
    rw [he', Except.error.injEq, eq_comm]
  · rw [exists_build_eq_error_iff]
    constructor
    · rintro ⟨line, hline, e, he⟩
      rw [Tagged.classifier_classify, Tagged.classify_eq_error_iff] at he
      obtain ⟨-, ⟨p, rfl⟩, hnumber⟩ := he
      exact ⟨p, hline, hnumber⟩
    · rintro ⟨p, hline, hnumber⟩
      exact ⟨_, hline, _, Tagged.classify_eq_error_iff.2 ⟨rfl, ⟨p, rfl⟩, hnumber⟩⟩

/-- The first rejected line of a log comes again behind another one, so the error is about the
    other one. -/
theorem rejects_of_repeated_line :
    let text := "fail: a\npass: z\nfail: b Construct: x\nfail: a\n"
    build Tagged.classifier (LogLines.ofText text) =
      .error (.malformedFailLine "fail: b Construct: x") := by
  intro text
  refine ((build_rejects Tagged.classifier text).2.2.1 _).2 ⟨"fail: b Construct: x", ?_, rfl⟩
  have hlines : rawLines text = ["fail: a", "pass: z"] ++ "fail: b Construct: x" :: ["fail: a"] := by
    decide +kernel
  have hb : Tagged.classifier.Rejects "fail: b Construct: x" :=
    ⟨.malformedFailLine "fail: b Construct: x", by decide +kernel⟩
  have hz : ¬ Tagged.classifier.Rejects "pass: z" :=
    Classifier.not_rejects_iff.2 ⟨some ⟨.pass, .text "z", "z"⟩, by decide +kernel⟩
  refine ⟨_, _, hlines, by decide, hb, fun l hl hrej => ?_⟩
  rcases List.mem_cons.1 hl with rfl | hl
  · decide
  · obtain rfl := List.mem_singleton.1 hl
    exact absurd hrej hz

end Report

/-! ## Log files -/

section LogFiles

variable {files : Tree} {path : Path} {d : Dialect} {r : Report}

/-- The text of a log; a log that is not there has none. -/
inductive LogText (files : Tree) (path : Path) : String → Prop
  | missing (h : files.read path = .error .noSuchFile) : LogText files path ""
  | written {bytes text} (h : files.read path = .ok bytes) (htext : textOf? bytes = some text) :
      LogText files path text

/-- The log gives no text: it cannot be read, for another reason than that it is not there, or
    its bytes are no text. -/
inductive Unreadable (files : Tree) (path : Path) : Prop
  | refused {cause} (h : files.read path = .error cause) (hcause : cause ≠ .noSuchFile)
  | invalid {bytes} (h : files.read path = .ok bytes) (htext : textOf? bytes = none)

/-- A log has one text at most. -/
theorem LogText.eq {a b : String} (ha : LogText files path a) (hb : LogText files path b) :
    a = b := by
  cases ha with
  | missing ha =>
    cases hb with
    | missing hb => rfl
    | written hb _ => rw [ha] at hb; cases hb
  | written ha hatext =>
    cases hb with
    | missing hb => rw [ha] at hb; cases hb
    | written hb hbtext =>
      obtain rfl := Except.ok.inj (ha.symm.trans hb)
      exact Option.some.inj (hatext.symm.trans hbtext)

theorem LogText.not_unreadable {text : String} (h : LogText files path text) :
    ¬ Unreadable files path := by
  intro hbad
  cases h with
  | missing h =>
    cases hbad with
    | refused hbad hcause => exact hcause (Except.error.inj (hbad.symm.trans h))
    | invalid hbad _ => rw [h] at hbad; cases hbad
  | written h htext =>
    cases hbad with
    | refused hbad _ => rw [h] at hbad; cases hbad
    | invalid hbad hnone =>
      obtain rfl := Except.ok.inj (h.symm.trans hbad)
      rw [htext] at hnone
      cases hnone

theorem LogLines.ofFile_eq_ok_iff {log : LogLines} :
    ofFile files path = .ok log ↔ ∃ text, LogText files path text ∧ log = ofText text := by
  unfold ofFile
  constructor
  · intro h
    -- a file that is not there stands for the empty text, every other failure is passed on
    split at h
    · next text hread =>
      obtain ⟨bytes, hbytes, htext⟩ := Tree.readText_eq_ok_iff.1 hread
      exact ⟨text, .written hbytes htext, (Except.ok.inj h).symm⟩
    · next hread =>
      rcases Tree.readText_eq_error_iff.1 hread with hmissing | ⟨_, -, -, hcause⟩
      · exact ⟨"", .missing hmissing, (Except.ok.inj h).symm⟩
      · cases hcause
    · cases h
  · rintro ⟨text, htext, rfl⟩
    cases htext with
    | missing h => rw [Tree.readText_eq_error_iff.2 (.inl h)]; rfl
    | written h htext => rw [Tree.readText_eq_ok_iff.2 ⟨_, h, htext⟩]

theorem LogLines.exists_ofFile_eq_error_iff :
    (∃ e, ofFile files path = .error e) ↔ Unreadable files path := by
  constructor
  · rintro ⟨e, h⟩
    unfold ofFile at h
    split at h
    · cases h
    · cases h
    · next cause hcause hread =>
      rcases Tree.readText_eq_error_iff.1 hread with hrefused | ⟨bytes, hbytes, htext, -⟩
      · exact .refused hrefused hcause
      · exact .invalid hbytes htext
  · intro hbad
    cases hlog : ofFile files path with
    | error e => exact ⟨e, rfl⟩
    | ok log =>
      obtain ⟨text, htext, -⟩ := ofFile_eq_ok_iff.1 hlog
      exact absurd hbad htext.not_unreadable

/-- The report of a log file is that of all lines of its text. -/
theorem Report.ofFile_eq_ok_iff : ofFile d files path = .ok r ↔
    ∃ text, LogText files path text ∧
      (rawLines text).foldlM (addLine d.classifier) (empty d.classifier.layout) = .ok r := by
  simp only [← addLines_eq_foldlM, ← build_ofText_eq_ok_iff]
  unfold ofFile
  -- a file has one text at most, so its lines determine the report
  cases hlog : LogLines.ofFile files path with
  | error e =>
    constructor
    · intro h
      cases h
    · rintro ⟨text, htext, -⟩
      rw [LogLines.ofFile_eq_ok_iff.2 ⟨text, htext, rfl⟩] at hlog
      cases hlog
  | ok log =>
    obtain ⟨text, htext, rfl⟩ := LogLines.ofFile_eq_ok_iff.1 hlog
    constructor
    · intro h
      exact ⟨text, htext, h⟩
    · rintro ⟨text', htext', h⟩
      rw [LogLines.ofFile_eq_ok_iff.2 ⟨text', htext', rfl⟩] at hlog
      rwa [Except.ok.inj hlog] at h

/-- A log file has no report if it gives no text or, in the tagged dialect, if one line of its
    text is malformed. -/
theorem Report.exists_ofFile_eq_error_iff : (∃ e, ofFile d files path = .error e) ↔
    Unreadable files path ∨ d = .tagged ∧
      ∃ text line, LogText files path text ∧ line ∈ rawLines text ∧ Tagged.Malformed line := by
  unfold ofFile
  cases hlog : LogLines.ofFile files path with
  | error e =>
    have hbad : Unreadable files path := LogLines.exists_ofFile_eq_error_iff.1 ⟨e, hlog⟩
    exact iff_of_true ⟨e, rfl⟩ (.inl hbad)
  | ok log =>
    obtain ⟨text, htext, rfl⟩ := LogLines.ofFile_eq_ok_iff.1 hlog
    show (∃ e, build d.classifier (LogLines.ofText text) = .error e) ↔ _
    -- only a line can fail the report now, and the checker dialect rejects none
    rw [or_iff_right htext.not_unreadable, exists_build_eq_error_iff]
    constructor
    · rintro ⟨line, hline, e, he⟩
      cases d with
      | tagged =>
        have hmalformed : Tagged.Malformed line := Tagged.exists_classify_eq_error_iff.1 ⟨e, he⟩
        exact ⟨rfl, text, line, htext, hline, hmalformed⟩
      | checker => cases he
    · rintro ⟨rfl, text', line, htext', hline, hmalformed⟩
      obtain rfl := htext.eq htext'
      exact ⟨line, hline, Tagged.exists_classify_eq_error_iff.2 hmalformed⟩

end LogFiles

end CompilerFuzz.Triage
