/-
  CompilerFuzz.Proofs.Triage.RoundTrip

  Reports read back from logs that are written out of them, in both dialects. A line of the
  tagged dialect says its severity and text. A line of the checker dialect says its severity,
  number and message, whatever the message is, apart from blanks around it
  (`Checker.verdict?_line`): the message runs to the last closing parenthesis, which is the one
  that the line ends with. What a report of the checker dialect holds has no such blanks.
-/
import CompilerFuzz.Proofs.Triage.Findings

namespace CompilerFuzz.Triage

open CompilerFuzz.Text

/-! ## Lines of the checker dialect -/

namespace Checker

/-- The canonical line of a verdict says this verdict, without the blanks around its message. -/
theorem verdict?_line {s : Severity} (hs : s ≠ .warn) {n : Nat} (hn : n ≤ maxWord64)
    {message : String} (h : '\n' ∉ message.toList) :
    verdict? (line s n message) = some ⟨s, .number n, trimText message⟩ := by
  have hdigits : ∀ d ∈ numeral n, isDecimalDigit d = true := fun d hd =>
    isDecimalDigit_of_isDigit (List.all_eq_true.1 (all_isDigit_numeral n) d hd)
  have hreading : Reading (line s n message).toList ⟨s, numeral n, message.toList⟩ [] := by
    refine ⟨hs, numeral_ne_nil n, hdigits, h, ?_⟩
    unfold line
    rw [String.toList_ofList]
    simp only [List.append_assoc]
  -- nothing follows the parenthesis that the line ends with
  have hfound : findingHere? (line s n message).toList = some ⟨s, numeral n, message.toList⟩ :=
    findingHere?_eq_some_iff.2 ⟨[], hreading, List.not_mem_nil⟩
  unfold verdict?
  rw [leftmost?_of_eq_some hfound]
  dsimp only
  rw [readNumeral?_numeral hn]
  rfl

/-! ## What the checker dialect says -/

/-- What a verdict of the checker dialect looks like. -/
structure Canonical (s : Severity) (k : SortKey) (p : String) : Prop where
  severity : s ≠ .warn
  number : ∃ n ≤ maxWord64, k = .number n
  trimmed : trimText p = p
  oneLine : '\n' ∉ p.toList

theorem canonical_of_verdict? {text : String} {s : Severity} {k : SortKey} {p : String}
    (h : verdict? text = some ⟨s, k, p⟩) : Canonical s k p := by
  obtain ⟨i, f, ⟨⟨rest, hreading, -⟩, -⟩, hword, hv⟩ := verdict?_eq_some_iff.1 h
  cases hv
  refine ⟨hreading.severity, ⟨_, hword.2, rfl⟩, ?_, ?_⟩
  · unfold trimText
    rw [String.toList_ofList, trim_trim]
  · rw [String.toList_ofList]
    exact fun hmem => hreading.oneLine (trim_subset _ hmem)

/-- A verdict as a line of the checker dialect, with its key as a report prints it. -/
def write (s : Severity) (k : SortKey) (message : String) : String :=
  String.ofList ("[Checker] ".toList ++ word s ++ "! ".toList ++ k.print.toList ++ " (".toList
    ++ message.toList ++ [')'])

theorem write_number (s : Severity) (n : Nat) (message : String) :
    write s (.number n) message = line s n message := by
  have hkey : (SortKey.number n).print.toList = numeral n := String.toList_ofList
  unfold write line
  rw [hkey]

theorem newline_notMem_line {s : Severity} (n : Nat) {p : String} (h : '\n' ∉ p.toList) :
    '\n' ∉ (line s n p).toList := by
  have hword : '\n' ∉ word s := by cases s <;> decide +kernel
  unfold line
  rw [String.toList_ofList]
  simp [newline_notMem_numeral, hword, h]

theorem getLast?_line (s : Severity) (n : Nat) (p : String) :
    (line s n p).toList.getLast? = some ')' := by
  unfold line
  rw [String.toList_ofList]
  exact List.getLast?_concat

end Checker

namespace Report

/-! ## Both dialects, written and read back -/

/-- The log of a text has the lines that the text is cut into. -/
theorem mem_lines_ofText {text : String} {lines : List String} (h : rawLines text = lines)
    (line : String) : line ∈ (LogLines.ofText text).lines ↔ line ∈ lines := by
  rw [← h]
  exact mem_keepLast

/-- A report of the tagged dialect is that of the log with its payloads behind their tags. -/
theorem build_of_taggedLines {text : String} {r : Report}
    (h : build Tagged.classifier (LogLines.ofText text) = .ok r) {lines : List String}
    (hlines : ∀ line, line ∈ lines ↔ line ∈ r.taggedLines) :
    build Tagged.classifier (LogLines.ofText (String.join (lines.map (· ++ "\r\n")))) = .ok r := by
  have hnone : ∀ line ∈ lines, '\n' ∉ line.toList := by
    intro line hline
    have hlog := ((mem_taggedLines_iff h).1 ((hlines line).1 hline)).1
    exact newline_notMem_of_mem_rawLines (mem_keepLast.1 hlog)
  have hread := mem_lines_ofText (rawLines_join_return hnone)
  refine build_of_written h (fun s k p hp => ?_) fun line => (hread line).trans (hlines line)
  obtain ⟨line, -, hv⟩ := hp.exists_line h
  obtain ⟨rfl, -⟩ := Tagged.eq_line_of_classify hv
  exact hv

/-- What a report of the checker dialect holds is canonical. -/
theorem Holds.canonical {log : LogLines} {r : Report} {s : Severity} {k : SortKey} {p : String}
    (hp : r.Holds s k p) (h : build Checker.classifier log = .ok r) : Checker.Canonical s k p := by
  obtain ⟨line, -, hv⟩ := hp.exists_line h
  rw [Checker.classifier_classify] at hv
  exact Checker.canonical_of_verdict? (Except.ok.inj hv)

/-- The report as lines of the checker dialect. -/
def checkerLines (r : Report) : List String := r.written Checker.write

/-- A report of the checker dialect is that of the log with its verdicts in canonical form. -/
theorem build_of_checkerLines {text : String} {r : Report}
    (h : build Checker.classifier (LogLines.ofText text) = .ok r) {lines : List String}
    (hlines : ∀ line, line ∈ lines ↔ line ∈ r.checkerLines) :
    build Checker.classifier (LogLines.ofText (String.join (lines.map (· ++ "\n")))) = .ok r := by
  have hline : ∀ line ∈ lines, '\n' ∉ line.toList ∧ line.toList.getLast? ≠ some '\r' := by
    intro line hline
    obtain ⟨s, k, p, hp, rfl⟩ := mem_written_iff.1 ((hlines line).1 hline)
    obtain ⟨n, -, rfl⟩ := (hp.canonical h).number
    -- a canonical line ends in a parenthesis, so no carriage return is taken off it
    rw [Checker.write_number, Checker.getLast?_line]
    exact ⟨Checker.newline_notMem_line n (hp.canonical h).oneLine, by decide⟩
  have hread := mem_lines_ofText (rawLines_join_newline (fun line hl => (hline line hl).1)
    fun line hl => (hline line hl).2)
  refine build_of_written h (fun s k p hp => ?_) fun line => (hread line).trans (hlines line)
  -- the message was trimmed when it was entered
  obtain ⟨hs, ⟨n, hn, rfl⟩, htrimmed, hone⟩ := hp.canonical h
  rw [Checker.write_number, Checker.classifier_classify, Checker.verdict?_line hs hn hone, htrimmed]

/-- The checker dialect rejects no line. -/
theorem exists_build_checker (log : LogLines) : ∃ r, build Checker.classifier log = .ok r :=
  exists_addLines_iff.2 fun _ _ => ⟨_, rfl⟩

/-- Reports are read back from logs that are written out of them. In the tagged dialect, for
    every log that has a report, the lines of its payloads with the tags of their severities
    have the same report; the carriage return before each newline keeps one at the end of a
    payload from being lost. In the checker dialect every log has a report, its keys are numbers
    of 64 bits, and the canonical lines of its verdicts have the same report. The lines may come
    in any order. This rests on what a canonical line says, whatever its message. -/
theorem build_roundTrip (text : String) :
    (∀ r, build Tagged.classifier (LogLines.ofText text) = .ok r →
      ∀ lines : List String, (∀ line, line ∈ lines ↔ line ∈ r.taggedLines) →
        build Tagged.classifier (LogLines.ofText (String.join (lines.map (· ++ "\r\n")))) = .ok r) ∧
    (∃ r, build Checker.classifier (LogLines.ofText text) = .ok r ∧
      (∀ s k p, r.Holds s k p → s ≠ .warn ∧ ∃ n ≤ maxWord64, k = .number n) ∧
      ∀ lines : List String, (∀ line, line ∈ lines ↔ line ∈ r.checkerLines) →
        build Checker.classifier (LogLines.ofText (String.join (lines.map (· ++ "\n")))) = .ok r) ∧
    ∀ s n message, s ≠ .warn → n ≤ maxWord64 → '\n' ∉ message.toList →
      Checker.classifier.classify (Checker.line s n message) =
        .ok (some ⟨s, .number n, trimText message⟩) := by
  refine ⟨fun r h lines hlines => build_of_taggedLines h hlines, ?_, fun s n message hs hn hm => ?_⟩
  · obtain ⟨r, h⟩ := exists_build_checker (LogLines.ofText text)
    refine ⟨r, h, fun s k p hp => ?_, fun lines hlines => build_of_checkerLines h hlines⟩
    exact ⟨(hp.canonical h).severity, (hp.canonical h).number⟩
  · rw [Checker.classifier_classify, Checker.verdict?_line hs hn hm]

/-- A payload ends in a carriage return, and a message in parentheses replaces another one. The
    reports are read back from their lines in reverse order. -/
theorem roundTrip_of_short_logs :
    (∃ r, build Tagged.classifier (LogLines.ofText "pass: a\r\r\nfail: x (Construct: 1)") = .ok r ∧
      build Tagged.classifier (LogLines.ofText "fail: x (Construct: 1)\r\npass: a\r\r\n") =
        .ok r) ∧
    (∃ r, build Checker.classifier (LogLines.ofText
        "[Checker] Pass! 1 (old)\nnoise [Checker] Pass! 01 ( (new) )\n[Checker] Fail! 7 (x)") =
          .ok r ∧
      build Checker.classifier (LogLines.ofText
        "[Checker] Fail! 7 (x)\n[Checker] Pass! 1 ((new))\n") = .ok r) ∧
    Checker.classifier.classify (Checker.line .fail maxWord64 " [Checker] Pass! 1 (a) ") =
      .ok (some ⟨.fail, .number maxWord64, "[Checker] Pass! 1 (a)"⟩) := by
  refine ⟨?_, ?_, ?_⟩
  · -- of two carriage returns one ends the line and one belongs to the payload
    obtain ⟨r, hr⟩ : ∃ r : Report, r = ⟨[(.pass, [(.text "a\r", ["a\r"])]),
        (.fail, [(.number 1, ["x (Construct: 1)"])])], .flat, by decide +kernel⟩ := ⟨_, rfl⟩
    have h : build Tagged.classifier (LogLines.ofText "pass: a\r\r\nfail: x (Construct: 1)") =
        .ok r := by
      rw [hr]
      decide +kernel
    have hlines : r.taggedLines = ["pass: a\r", "fail: x (Construct: 1)"] := by
      rw [hr]
      decide +kernel
    have htext : String.join (r.taggedLines.reverse.map (· ++ "\r\n")) =
        "fail: x (Construct: 1)\r\npass: a\r\r\n" := by
      rw [hlines]
      decide +kernel
    have hback := (build_roundTrip _).1 r h r.taggedLines.reverse fun _ => List.mem_reverse
    rw [htext] at hback
    exact ⟨r, h, hback⟩
  · -- the later message of number 1 has parentheses of its own
    obtain ⟨r, h, -, hback⟩ := (build_roundTrip
      "[Checker] Pass! 1 (old)\nnoise [Checker] Pass! 01 ( (new) )\n[Checker] Fail! 7 (x)").2.1
    have hr : build Checker.classifier (LogLines.ofText
        "[Checker] Pass! 1 (old)\nnoise [Checker] Pass! 01 ( (new) )\n[Checker] Fail! 7 (x)") =
        .ok ⟨[(.pass, [(.number 1, ["(new)"])]), (.fail, [(.number 7, ["x"])])], .keyed,
          by decide +kernel⟩ := by
      decide +kernel
    have hlines : r.checkerLines = ["[Checker] Pass! 1 ((new))", "[Checker] Fail! 7 (x)"] := by
      rw [Except.ok.inj (h.symm.trans hr)]
      decide +kernel
    have htext : String.join (r.checkerLines.reverse.map (· ++ "\n")) =
        "[Checker] Fail! 7 (x)\n[Checker] Pass! 1 ((new))\n" := by
      rw [hlines]
      decide +kernel
    have hsame := hback r.checkerLines.reverse fun _ => List.mem_reverse
    rw [htext] at hsame
    exact ⟨r, h, hsame⟩
  · -- a message that reads like a verdict is still a message, without the blanks around it
    have htrimmed : trimText " [Checker] Pass! 1 (a) " = "[Checker] Pass! 1 (a)" := by
      decide +kernel
    have hread := (build_roundTrip "").2.2 .fail maxWord64 " [Checker] Pass! 1 (a) " nofun
      (Nat.le_refl _) (by decide +kernel)
    rw [hread, htrimmed]

end Report

end CompilerFuzz.Triage
