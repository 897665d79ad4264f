/-
  CompilerFuzz.Proofs.Triage.Listing

  The text that is printed for a log, said of its lines alone. `Prints` lists what stands in it
  in either dialect:

    * tagged: a line for every distinct text with a tag, passes and warnings by their bytes,
      failures by the numbers of their constructs first;
    * checker: a line for every number, with the last message of its passes, or with all
      messages of its failures.

  Lines have one such text at most (`Prints.unique`), and if a log has a report, it is the text
  of this report (`prints_iff`).
-/
import Mathlib.Data.Set.List
import CompilerFuzz.Proofs.Triage.Constructs
import CompilerFuzz.Proofs.Triage.Deduplication
import CompilerFuzz.Proofs.Triage.Findings
import CompilerFuzz.Triage.Dialect

namespace CompilerFuzz.Triage

open CompilerFuzz.Text

/-! ## Printed text -/

/-- What a printed line of a severity begins with. -/
def heading : ColorMode → Severity → String
  | .plain, .pass => "[pass] "
  | .plain, .warn => "[warn] "
  | .plain, .fail => "[fail] "
  | .ansi, .pass => "[\x1b[1;32mpass\x1b[0m] "
  | .ansi, .warn => "[\x1b[1;33mwarn\x1b[0m] "
  | .ansi, .fail => "[\x1b[1;31mfail\x1b[0m] "

/-- A printed line. -/
def headed (mode : ColorMode) (s : Severity) (body : String) : String :=
  heading mode s ++ body ++ "\n"

/-- The fail line with the given text names the number: that of its first digits. -/
def Tagged.Names (p : String) (n : Nat) : Prop :=
  ∃ i ds, FirstNumber (line .fail p).toList i ds ∧ IsWord ds ∧ numeralValue ds = n

namespace Checker

/-- The last of the passes of a number has the given message. -/
def LastPass (lines : List String) (n : Nat) (m : String) : Prop :=
  ∃ earlier line later, lines = earlier ++ line :: later ∧
    Says line.toList (some ⟨.pass, .number n, m⟩) ∧
    ∀ l ∈ later, ∀ q, ¬ Says l.toList (some ⟨.pass, .number n, q⟩)

/-- Some failure of a number has the given message. -/
def SomeFail (lines : List String) (n : Nat) (m : String) : Prop :=
  ∃ line ∈ lines, Says line.toList (some ⟨.fail, .number n, m⟩)

end Checker

/-- The text that is printed for the lines of a log. -/
inductive Prints (mode : ColorMode) (lines : List String) : Dialect → String → Prop
  | tagged {passes warns fails : List String}
      (hp : Sorted.Ascending byteOrder passes)
      (hpm : ∀ p, p ∈ passes ↔ Tagged.line .pass p ∈ lines)
      (hw : Sorted.Ascending byteOrder warns)
      (hwm : ∀ p, p ∈ warns ↔ Tagged.line .warn p ∈ lines)
      (hf : fails.Pairwise fun p q => ∃ m n, Tagged.Names p m ∧ Tagged.Names q n ∧
        (m < n ∨ m = n ∧ byteOrder p q = .lt))
      (hfm : ∀ p, p ∈ fails ↔ Tagged.line .fail p ∈ lines) :
      Prints mode lines .tagged (String.join (passes.map (headed mode .pass) ++
        warns.map (headed mode .warn) ++ fails.map (headed mode .fail)))
  | checker {passes : List (Nat × String)} {fails : List (Nat × List String)}
      (hp : passes.Pairwise fun e e' => e.1 < e'.1)
      (hpm : ∀ n m, (n, m) ∈ passes ↔ Checker.LastPass lines n m)
      (hf : fails.Pairwise fun e e' => e.1 < e'.1)
      (hfk : ∀ n, (∃ ms, (n, ms) ∈ fails) ↔ ∃ m, Checker.SomeFail lines n m)
      (hfm : ∀ n ms, (n, ms) ∈ fails →
        Sorted.Ascending byteOrder ms ∧ ∀ m, m ∈ ms ↔ Checker.SomeFail lines n m) :
      Prints mode lines .checker (String.join
        (passes.map (fun e => headed mode .pass (numeralText e.1 ++ ": " ++ e.2)) ++
          fails.map fun e =>
            headed mode .fail (numeralText e.1 ++ ": " ++ String.intercalate ", " e.2)))

/-! ## One text for all lines -/

theorem Tagged.names_iff {p : String} {n : Nat} :
    Names p n ↔ construct? (line .fail p).toList = some n := construct?_eq_some_iff.symm

theorem Tagged.Names.unique {p : String} {m n : Nat} (hm : Names p m) (hn : Names p n) : m = n := by
  rw [names_iff] at hm hn
  exact Option.some.inj (hm.symm.trans hn)

/-- Lists of failures with the same texts in the order of a report are one list. -/
theorem Tagged.fails_unique {fails fails' : List String}
    (h : fails.Pairwise fun p q => ∃ m n, Names p m ∧ Names q n ∧
      (m < n ∨ m = n ∧ byteOrder p q = .lt))
    (h' : fails'.Pairwise fun p q => ∃ m n, Names p m ∧ Names q n ∧
      (m < n ∨ m = n ∧ byteOrder p q = .lt))
    (hmem : ∀ p, p ∈ fails ↔ p ∈ fails') : fails = fails' := by
  refine Sorted.eq_of_mem_iff ?_ h h' hmem
  rintro p q ⟨m, n, hp, hq, hlt⟩ ⟨n', m', hq', hp', hlt'⟩
  obtain rfl := hp.unique hp'
  obtain rfl := hq.unique hq'
  rcases hlt with hlt | ⟨rfl, hlt⟩
  · rcases hlt' with hlt' | ⟨rfl, -⟩
    · exact Nat.lt_asymm hlt hlt'
    · exact Nat.lt_irrefl _ hlt
  · rcases hlt' with hlt' | ⟨-, hlt'⟩
    · exact Nat.lt_irrefl _ hlt'
    · exact Sorted.not_lt_of_lt hlt hlt'

/-- Lists with the same members by ascending numbers are one list. -/
theorem eq_of_ascending_numbers {β : Type} {es es' : List (Nat × β)}
    (h : es.Pairwise fun e e' => e.1 < e'.1) (h' : es'.Pairwise fun e e' => e.1 < e'.1)
    (hmem : ∀ n b, (n, b) ∈ es ↔ (n, b) ∈ es') : es = es' :=
  Sorted.eq_of_mem_iff Nat.lt_asymm h h' fun e => hmem e.1 e.2

/-- The lines of a log print one text at most. -/
theorem Prints.unique {mode : ColorMode} {lines : List String} {d : Dialect} {out out' : String}
    (h : Prints mode lines d out) (h' : Prints mode lines d out') : out = out' := by
  cases h with
  | tagged hp hpm hw hwm hf hfm =>
    cases h' with
    | tagged hp' hpm' hw' hwm' hf' hfm' =>
      rw [hp.ext hp' fun p => (hpm p).trans (hpm' p).symm,
        hw.ext hw' fun p => (hwm p).trans (hwm' p).symm,
        Tagged.fails_unique hf hf' fun p => (hfm p).trans (hfm' p).symm]
  | @checker passes fails hp hpm hf hfk hfm =>
    cases h' with
    | @checker passes' fails' hp' hpm' hf' hfk' hfm' =>
      -- the messages under a number are an ascending list, so the lines determine it
      have hmessages : ∀ {n ms ms'}, (n, ms) ∈ fails → (n, ms') ∈ fails' → ms = ms' :=
        fun hms hms' => (hfm _ _ hms).1.ext (hfm' _ _ hms').1 fun m =>
          ((hfm _ _ hms).2 m).trans ((hfm' _ _ hms').2 m).symm
      have hfails : ∀ n ms, (n, ms) ∈ fails ↔ (n, ms) ∈ fails' := by
        intro n ms
        constructor
        · intro hms
          obtain ⟨ms', hms'⟩ := (hfk' n).2 ((hfk n).1 ⟨ms, hms⟩)
          rwa [hmessages hms hms']
        · intro hms'
          obtain ⟨ms'', hms''⟩ := (hfk n).2 ((hfk' n).1 ⟨ms, hms'⟩)
          rwa [← hmessages hms'' hms']
      rw [eq_of_ascending_numbers hp hp' fun n m => (hpm n m).trans (hpm' n m).symm,
        eq_of_ascending_numbers hf hf' hfails]

/-! ## The text of a report -/

theorem printedLine_eq_headed (mode : ColorMode) (s : Severity) :
    Report.printedLine mode s = headed mode s := by
  have hheading : "[" ++ mode.label s ++ "] " = heading mode s := by
    cases mode <;> cases s <;> decide +kernel
  funext body
  show "[" ++ mode.label s ++ "] " ++ body ++ "\n" = heading mode s ++ body ++ "\n"
  rw [hheading]

namespace Report

variable {text : String} {r : Report}

theorem prints_of_tagged (h : build Tagged.classifier (LogLines.ofText text) = .ok r)
    (mode : ColorMode) : Prints mode (rawLines text) .tagged (r.render mode) := by
  have hmem : ∀ s p, p ∈ r.bodies s ↔ Tagged.line s p ∈ rawLines text := fun s p =>
    (mem_bodies_tagged_iff h).trans mem_keepLast
  have hfails := pairwise_bodies_fail h
  simp only [← Tagged.names_iff] at hfails
  rw [render_of_flat (layout_of_build h), printedLine_eq_headed, printedLine_eq_headed,
    printedLine_eq_headed]
  exact .tagged (ascending_bodies_tagged h nofun) (hmem .pass) (ascending_bodies_tagged h nofun)
    (hmem .warn) hfails (hmem .fail)

end Report

/-! ## The text of a report of the checker dialect -/

namespace Checker

theorem classify_eq_some_iff {line : String} {v : Verdict} :
    classifier.classify line = .ok (some v) ↔ Says line.toList (some v) := by
  rw [classify_eq_iff]
  constructor
  · rintro ⟨v', hv, hsays⟩
    rwa [Except.ok.inj hv]
  · exact fun hsays => ⟨_, rfl, hsays⟩

theorem someFail_iff {text : String} {n : Nat} {m : String} : SomeFail (rawLines text) n m ↔
    ∃ line ∈ (LogLines.ofText text).lines,
      classifier.classify line = .ok (some ⟨.fail, .number n, m⟩) := by
  simp only [SomeFail, classify_eq_some_iff, LogLines.lines_ofText, mem_keepLast]

/-- A verdict is no warning, and its key is a number. -/
theorem Says.shape {cs : List Char} {s : Severity} {k : SortKey} {m : String}
    (h : Says cs (some ⟨s, k, m⟩)) : s ≠ .warn ∧ ∃ n, k = .number n := by
  cases h with
  | verdict hfirst _ =>
    obtain ⟨_, hreading, -⟩ := hfirst.reads
    exact ⟨hreading.severity, _, rfl⟩

end Checker

namespace Report

section Checker

variable {text : String} {r : Report}

theorem pairwise_of_entries_eq {β : Type} (f : β → Payloads) {s : Severity} {es : List (Nat × β)}
    (h : r.entries s = es.map fun e => (.number e.1, f e.2)) :
    es.Pairwise fun e e' => e.1 < e'.1 := by
  have hkeys : ((r.entries s).map Prod.fst).Pairwise fun j k => SortKey.order j k = .lt :=
    r.ascendingKeys_entries s
  rw [h, List.map_map, List.pairwise_map] at hkeys
  exact hkeys.imp Nat.compare_eq_lt.1

/-- A keyed report prints one line for each key. -/
theorem printedLines_of_keyed (h : r.layout = .keyed) (mode : ColorMode) :
    r.printedLines mode = Severity.all.flatMap fun s => (r.entries s).map fun e =>
      headed mode s (e.1.print ++ ": " ++ String.intercalate ", " e.2) := by
  unfold printedLines
  rw [h]
  simp only [List.map_eq_flatMap, ← printedLine_eq_headed]
  rfl

variable (h : build Checker.classifier (LogLines.ofText text) = .ok r)
include h

/-- Every entry is under a number, and stands there because of a line. -/
theorem exists_says_of_mem_entries {s : Severity} {k : SortKey} {ps : Payloads}
    (hps : (k, ps) ∈ r.entries s) :
    ∃ line ∈ rawLines text, ∃ m, Checker.Says line.toList (some ⟨s, k, m⟩) := by
  obtain ⟨line, hline, m, hv⟩ := (exists_mem_entries_iff h).1 ⟨ps, hps⟩
  exact ⟨line, mem_keepLast.1 hline, m, Checker.classify_eq_some_iff.1 hv⟩

theorem entries_warn_eq_nil : r.entries .warn = [] := by
  refine List.eq_nil_iff_forall_not_mem.2 fun e he => ?_
  obtain ⟨line, -, m, hsays⟩ := exists_says_of_mem_entries h he
  exact hsays.shape.1 rfl

/-- Entries whose payloads are of a form `f`, told by their numbers. -/
theorem exists_entries_eq {β : Type} (f : β → Payloads) {s : Severity}
    (hf : ∀ k ps, (k, ps) ∈ r.entries s → ∃ b, f b = ps) :
    ∃ es : List (Nat × β), r.entries s = es.map fun e => (.number e.1, f e.2) := by
  have hrange : r.entries s ∈ Set.range
      (List.map fun e : Nat × β => ((SortKey.number e.1, f e.2) : SortKey × Payloads)) := by
    rw [Set.range_list_map]
    rintro ⟨k, ps⟩ hps
    obtain ⟨line, -, m, hsays⟩ := exists_says_of_mem_entries h hps
    obtain ⟨n, rfl⟩ := hsays.shape.2
    obtain ⟨b, rfl⟩ := hf _ _ hps
    exact ⟨(n, b), rfl⟩
  obtain ⟨es, hes⟩ := hrange
  exact ⟨es, hes.symm⟩

/-- The passes of a report, a message for each number. -/
theorem exists_passes : ∃ passes : List (Nat × String),
    r.entries .pass = passes.map fun e => (.number e.1, [e.2]) := by
  refine exists_entries_eq h ([·]) fun k ps hps => ?_
  obtain ⟨m, -, rfl⟩ := payloads_of_replace h rfl hps
  exact ⟨m, rfl⟩

/-- The failures of a report, messages for each number. -/
theorem exists_fails : ∃ fails : List (Nat × List String),
    r.entries .fail = fails.map fun e => (.number e.1, e.2) :=
  exists_entries_eq h id fun _ ps _ => ⟨ps, rfl⟩

theorem mem_entries_pass_iff {n : Nat} {m : String} :
    (SortKey.number n, [m]) ∈ r.entries .pass ↔ Checker.LastPass (rawLines text) n m := by
  unfold Checker.LastPass
  have hrule : Checker.classifier.merge .pass = .replace := rfl
  simp only [← Checker.classify_eq_some_iff]
  rw [← getLast?_payloads_eq_some_iff, ← payloads?_eq_some_iff, payloads?_of_build_ofText h, hrule,
    Merge.held_replace, Option.or_none]
  simp

/-- The failures of a number stand under it exactly if there are any. -/
theorem exists_mem_entries_fail_iff {n : Nat} :
    (∃ ms, (SortKey.number n, ms) ∈ r.entries .fail) ↔
      ∃ m, Checker.SomeFail (rawLines text) n m := by
  simp only [Checker.someFail_iff]
  rw [exists_mem_entries_iff h]
  constructor
  · rintro ⟨line, hline, m, hv⟩
    exact ⟨m, line, hline, hv⟩
  · rintro ⟨m, line, hline, hv⟩
    exact ⟨line, hline, m, hv⟩

/-- The text of a report, from its passes and its failures. -/
theorem render_checker_eq (mode : ColorMode) {passes : List (Nat × String)}
    {fails : List (Nat × List String)}
    (hpasses : r.entries .pass = passes.map fun e => (.number e.1, [e.2]))
    (hfails : r.entries .fail = fails.map fun e => (.number e.1, e.2)) :
    r.render mode = String.join
      (passes.map (fun e => headed mode .pass (numeralText e.1 ++ ": " ++ e.2)) ++
        fails.map fun e =>
          headed mode .fail (numeralText e.1 ++ ": " ++ String.intercalate ", " e.2)) := by
  unfold render
  rw [printedLines_of_keyed (layout_of_build h)]
  simp [Severity.all, hpasses, hfails, entries_warn_eq_nil h, SortKey.print, Function.comp_def]

theorem prints_of_checker (mode : ColorMode) :
    Prints mode (rawLines text) .checker (r.render mode) := by
  obtain ⟨passes, hpasses⟩ := exists_passes h
  obtain ⟨fails, hfails⟩ := exists_fails h
  have hpass : ∀ n m, (n, m) ∈ passes ↔ (SortKey.number n, [m]) ∈ r.entries .pass := by
    intro n m
    rw [hpasses]
    simp
  have hfail : ∀ n ms, (n, ms) ∈ fails ↔ (SortKey.number n, ms) ∈ r.entries .fail := by
    intro n ms
    rw [hfails]
    simp
  rw [render_checker_eq h mode hpasses hfails]
  refine .checker (pairwise_of_entries_eq ([·]) hpasses) (fun n m => ?_)
    (pairwise_of_entries_eq id hfails) (fun n => ?_) fun n ms hms => ?_
  · rw [hpass, mem_entries_pass_iff h]
  · simp only [hfail]
    exact exists_mem_entries_fail_iff h
  · simp only [Checker.someFail_iff]
    exact payloads_of_accumulate h rfl ((hfail n ms).1 hms)

end Checker

/-- What a report prints is the text that is printed for the lines of its log. -/
theorem prints_iff {d : Dialect} {text : String} {r : Report}
    (h : build d.classifier (LogLines.ofText text) = .ok r) {mode : ColorMode} {out : String} :
    Prints mode (rawLines text) d out ↔ out = r.render mode := by
  have hprints : Prints mode (rawLines text) d (r.render mode) := by
    cases d with
    | tagged => exact prints_of_tagged h mode
    | checker => exact prints_of_checker h mode
  constructor
  · exact fun hout => hout.unique hprints
  · rintro rfl
    exact hprints

end Report

end CompilerFuzz.Triage
