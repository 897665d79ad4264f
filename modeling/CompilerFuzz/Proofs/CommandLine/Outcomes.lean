/-
  CompilerFuzz.Proofs.CommandLine.Outcomes

  Commands do all of their work or report a fault. A triage prints the whole report of its
  log, which is the one text that its lines print (`Triage.Prints`), or fails with nothing
  printed; it fails only on a log that gives no text (`Unreadable`) or, in the tagged dialect,
  on a malformed line anywhere in it. A campaign
  that cannot be resolved fails with the files as they were and no event in the history, and
  one that can prints its summary, on one line, or nothing.
-/
import CompilerFuzz.Proofs.CommandLine.Resolution
import CompilerFuzz.Proofs.Triage.Listing
import CompilerFuzz.Proofs.Triage.Rejection

namespace CompilerFuzz.CommandLine

open CompilerFuzz.Campaign CompilerFuzz.Files CompilerFuzz.Text CompilerFuzz.Triage

/-! ## Triages -/

theorem triage_eq_ok_iff {files : Tree} {o : TriageOptions} {out : String} :
    triage files o = .ok out ↔ ∃ r, Report.ofFile o.dialect files o.log = .ok r ∧
      out = r.render o.color := by
  unfold triage
  cases Report.ofFile o.dialect files o.log <;> simp [eq_comm]

theorem exists_triage_eq_error_iff {files : Tree} {o : TriageOptions} :
    (∃ f, triage files o = .error f) ↔ ∃ e, Report.ofFile o.dialect files o.log = .error e := by
  unfold triage
  cases Report.ofFile o.dialect files o.log <;> simp

/-- The run failed: its status tells so, and it printed nothing on the standard output. -/
structure Transcript.Failed (t : Transcript) : Prop where
  exit : t.exit ≠ 0
  stdout : t.stdout = ""

theorem Transcript.failed_failure (f : Fault) (stderr : String) (w : World) :
    (failure f stderr w).Failed where
  exit := Nat.one_ne_zero
  stdout := rfl

/-- What a triage leaves behind: the files as they were, and either the whole report of the log
    on the standard output, or a failure for one of two reasons. -/
structure Triages (files : Tree) (o : TriageOptions) (t : Transcript) : Prop where
  /-- No file has changed and no tool was called. -/
  world : t.world = ⟨files, []⟩
  /-- Either nothing is printed, or the report of all lines, as the text that these lines print
      in the dialect. -/
  whole : t.Failed ∨ t.exit = 0 ∧ ∃ text r, LogText files o.log text ∧
    (rawLines text).foldlM (Report.addLine o.dialect.classifier)
      (.empty o.dialect.classifier.layout) = .ok r ∧ t.stdout = r.render o.color ∧
    ∀ out, Prints o.color (rawLines text) o.dialect out ↔ out = t.stdout
  fails : t.exit ≠ 0 ↔ Unreadable files o.log ∨ o.dialect = .tagged ∧
    ∃ text line, LogText files o.log text ∧ line ∈ rawLines text ∧ Tagged.Malformed line

theorem triages_failure {files : Tree} {o : TriageOptions} {f : Fault}
    (h : triage files o = .error f) : Triages files o (.failure f "" ⟨files, []⟩) where
  world := rfl
  whole := .inl (Transcript.failed_failure f _ _)
  fails := by
    rw [← Report.exists_ofFile_eq_error_iff, ← exists_triage_eq_error_iff]
    exact iff_of_true Nat.one_ne_zero ⟨f, h⟩

theorem triages_success {files : Tree} {o : TriageOptions} {out : String}
    (h : triage files o = .ok out) : Triages files o (.success out "" ⟨files, []⟩) where
  world := rfl
  whole := by
    obtain ⟨r, hr, rfl⟩ := triage_eq_ok_iff.1 h
    obtain ⟨text, htext, hreport⟩ := Report.ofFile_eq_ok_iff.1 hr
    have hbuild : Report.build o.dialect.classifier (LogLines.ofText text) = .ok r := by
      rw [Report.build_ofText_eq_ok_iff, Report.addLines_eq_foldlM]
      exact hreport
    exact .inr ⟨rfl, text, r, htext, hreport, rfl, fun out => Report.prints_iff hbuild⟩
  fails := by
    rw [← Report.exists_ofFile_eq_error_iff, ← exists_triage_eq_error_iff]
    apply iff_of_false
    · exact fun hexit => hexit rfl
    · rintro ⟨f, hf⟩
      rw [h] at hf
      cases hf

/-- A log that has a report is triaged, and its report is printed. -/
theorem Triages.of_report {files : Tree} {o : TriageOptions} {t : Transcript}
    (ht : Triages files o t) {text : String} (htext : LogText files o.log text) {r : Report}
    (hr : (rawLines text).foldlM (Report.addLine o.dialect.classifier)
      (.empty o.dialect.classifier.layout) = .ok r) : t.exit = 0 ∧ t.stdout = r.render o.color := by
  rcases ht.whole with hfailed | ⟨hexit, text', r', htext', hr', hout, -⟩
  · obtain ⟨e, he⟩ := Report.exists_ofFile_eq_error_iff.2 (ht.fails.1 hfailed.exit)
    rw [Report.ofFile_eq_ok_iff.2 ⟨text, htext, hr⟩] at he
    cases he
  · obtain rfl := htext.eq htext'
    obtain rfl := Except.ok.inj (hr.symm.trans hr')
    exact ⟨hexit, hout⟩

/-- A log that is not there has a report, and nothing of it is printed. -/
theorem Triages.of_missing {files : Tree} {o : TriageOptions} {t : Transcript}
    (ht : Triages files o t) (h : files.read o.log = .error .noSuchFile) :
    t.exit = 0 ∧ t.stdout = "" := by
  -- its text is empty, and so is its report
  have hempty : (rawLines "").foldlM (Report.addLine o.dialect.classifier)
      (.empty o.dialect.classifier.layout) = .ok (.empty o.dialect.classifier.layout) := rfl
  exact ht.of_report (.missing h) hempty

/-! ## Campaigns -/

theorem newline_notMem_append {a b : String} (ha : '\n' ∉ a.toList) (hb : '\n' ∉ b.toList) :
    '\n' ∉ (a ++ b).toList := by
  rw [String.toList_append, List.mem_append, not_or]
  exact ⟨ha, hb⟩

/-- A summary is printed on one line. -/
theorem exists_summaryLine_eq (s : Summary) :
    ∃ line : String, '\n' ∉ line.toList ∧ summaryLine s = line ++ "\n" := by
  have hopening : '\n' ∉ "Executed ".toList := by decide +kernel
  have hprograms : '\n' ∉ " programs in ".toList := by decide +kernel
  have hunit : '\n' ∉ "s (".toList := by decide +kernel
  have hlabel : '\n' ∉ " generator failures)".toList := by decide +kernel
  have hending : '\n' ∉ (if s.interrupted then ", interrupted" else "").toList := by
    split <;> decide +kernel
  -- the pieces as they are put together, from left to right
  have hexecuted := newline_notMem_append hopening (newline_notMem_numeralText s.executed)
  have hseconds := newline_notMem_append (newline_notMem_append hexecuted hprograms)
    (Binary64.newline_notMem_fixedText 1 s.elapsed.seconds)
  have hfailures := newline_notMem_append (newline_notMem_append hseconds hunit)
    (newline_notMem_numeralText s.generatorFailures)
  exact ⟨_, newline_notMem_append (newline_notMem_append hfailures hlabel) hending, rfl⟩

/-- What a campaign that was started leaves behind, by the result of its run. -/
theorem runCampaign_eq_some {env : Environment} {fuel : Nat} {job : Job} {files : Tree}
    {result : RunResult} {s : Session} (quiet : Bool)
    (h : (Session.start files).run env fuel job = some (result, s)) :
    ∃ t, runCampaign env fuel quiet job files = some t ∧ t.world = s.world ∧
      (∀ summary, result = .ok summary → t.exit = 0 ∧ t.stdout = summaryLine summary) ∧
      ∀ e, result = .error e → t.Failed := by
  unfold runCampaign
  rw [h]
  cases result with
  | ok summary =>
    refine ⟨_, rfl, rfl, ?_, ?_⟩
    · rintro summary' hsame
      obtain rfl := Except.ok.inj hsame
      exact ⟨rfl, rfl⟩
    · rintro e hsame
      cases hsame
  | error e =>
    refine ⟨_, rfl, rfl, ?_, ?_⟩
    · rintro summary hsame
      cases hsame
    · rintro e' -
      exact Transcript.failed_failure _ _ _

/-! ## Commands -/

section Perform

variable {env : Environment} {fuel : Span → Nat} {config : Option Path} {raw : Option Bytes}
  {files : Tree} {logLevel : Option String}

/-- A triage always comes to its end. -/
theorem exists_perform_triage (o : TriageOptions) : ∃ t,
    perform env fuel ⟨variableText? raw, files⟩ ⟨config, logLevel, .triage o⟩ = some t ∧
      Triages files o t := by
  unfold perform
  dsimp only
  cases h : triage files o with
  | error f => exact ⟨_, rfl, triages_failure h⟩
  | ok out => exact ⟨_, rfl, triages_success h⟩

theorem perform_of_fault {o : FuzzOptions} {f : Fault}
    (h : Resolves config raw files o (.error f)) :
    perform env fuel ⟨variableText? raw, files⟩ ⟨config, logLevel, .fuzz o⟩ =
      some (.failure f "" ⟨files, []⟩) :=
  perform_eq_iff_resolves.2 (.inl ⟨f, h, rfl⟩)

theorem perform_of_job {o : FuzzOptions} {job : Job} (h : Resolves config raw files o (.ok job)) :
    perform env fuel ⟨variableText? raw, files⟩ ⟨config, logLevel, .fuzz o⟩ =
      runCampaign env (fuel job.plan.budget) o.quiet job files :=
  perform_eq_iff_resolves.2 (.inr ⟨job, h, rfl⟩)

end Perform

/-- Every command does all of its work or fails. A triage always ends, changes nothing, and
    prints the whole report of its log or fails; a log that is not there prints nothing. A
    campaign whose settings cannot be loaded or whose mode is refused fails with the files and
    the history as they were. One that is run prints its summary, on one line, if it ends with
    one, and fails if it ends with an error. -/
theorem perform_all_or_nothing (env : Environment) (fuel : Span → Nat) (config : Option Path)
    (raw : Option Bytes) (files : Tree) (logLevel : Option String) :
    (∀ o : TriageOptions, ∃ t,
      perform env fuel ⟨variableText? raw, files⟩ ⟨config, logLevel, .triage o⟩ = some t ∧
        Triages files o t ∧
        (files.read o.log = .error .noSuchFile → t.exit = 0 ∧ t.stdout = "")) ∧
    (∀ o : FuzzOptions, (∃ f, Resolves config raw files o (.error f)) → ∃ t,
      perform env fuel ⟨variableText? raw, files⟩ ⟨config, logLevel, .fuzz o⟩ = some t ∧
        t.Failed ∧ t.world = ⟨files, []⟩) ∧
    ∀ (o : FuzzOptions) (job : Job), Resolves config raw files o (.ok job) → ∀ result s,
      (Session.start files).run env (fuel job.plan.budget) job = some (result, s) → ∃ t,
        perform env fuel ⟨variableText? raw, files⟩ ⟨config, logLevel, .fuzz o⟩ = some t ∧
          t.world = s.world ∧
          (∀ summary, result = .ok summary → t.exit = 0 ∧
            t.stdout = "Executed " ++ numeralText summary.executed ++ " programs in " ++
              summary.elapsed.seconds.fixedText 1 ++ "s (" ++
              numeralText summary.generatorFailures ++ " generator failures)" ++
              (if summary.interrupted then ", interrupted" else "") ++ "\n" ∧
            ∃ line : String, '\n' ∉ line.toList ∧ t.stdout = line ++ "\n") ∧
          ∀ e, result = .error e → t.Failed := by
  refine ⟨fun o => ?_, ?_, ?_⟩
  · obtain ⟨t, ht, htriages⟩ := exists_perform_triage o
    exact ⟨t, ht, htriages, htriages.of_missing⟩
  · rintro o ⟨f, hf⟩
    exact ⟨_, perform_of_fault hf, Transcript.failed_failure f _ _, rfl⟩
  · intro o job hjob result s hrun
    obtain ⟨t, ht, hworld, hsummary, herror⟩ := runCampaign_eq_some o.quiet hrun
    refine ⟨t, (perform_of_job hjob).trans ht, hworld, fun summary hsame => ?_, herror⟩
    obtain ⟨hexit, hout⟩ := hsummary summary hsame
    refine ⟨hexit, hout, ?_⟩
    rw [hout]
    exact exists_summaryLine_eq summary

/-- The campaign of the built-in settings, with the given budget. -/
def builtInJob (budget : Span) : Job :=
  ⟨.default, WorkspaceSettings.default.artifacts, ⟨budget, .pipeline 3, .abort, by decide⟩⟩

/-- A malformed line in the middle of a log, a log in each dialect that has a report, a level
    that is refused, a budget of no time, and a generator that is not there. -/
theorem perform_of_short_commands :
    let env : Environment := ⟨fun _ _ _ => .cannotStart .noSuchFile, fun _ => .ofSecs 0,
      fun _ => .ofSecs 0, fun _ => false⟩
    let files : Tree :=
      ⟨[(["tmp", "/", "log"], .file (bytesOf "pass: a\nfail: b\npass: c\n")),
        (["tmp", "/", "tags"], .file (bytesOf "fail: b Construct: 7\npass: z\npass: z")),
        (["tmp", "/", "marks"], .file (bytesOf
          "[Checker] Fail! 7 (b)\n[Checker] Pass! 1 (x)\n[Checker] Fail! 7 (a)\n"))]⟩
    let run (c : Command) := perform env (fun _ => 1) ⟨none, files⟩ ⟨none, none, c⟩
    (∃ t, run (.triage ⟨"log", .tagged, .plain⟩) = some t ∧ t.Failed ∧ t.world = ⟨files, []⟩) ∧
    (∃ t, run (.triage ⟨"tags", .tagged, .ansi⟩) = some t ∧ t.exit = 0 ∧
      t.stdout = "[\x1b[1;32mpass\x1b[0m] z\n[\x1b[1;31mfail\x1b[0m] b Construct: 7\n") ∧
    (∃ t, run (.triage ⟨"marks", .checker, .plain⟩) = some t ∧ t.exit = 0 ∧
      t.stdout = "[pass] 1: x\n[fail] 7: a, b\n") ∧
    (∃ t, run (.fuzz { FuzzOptions.blank with level := some 4 }) = some t ∧ t.Failed ∧
      t.world = ⟨files, []⟩) ∧
    (∃ t, run (.fuzz { FuzzOptions.blank with seconds := some 0 }) = some t ∧ t.exit = 0 ∧
      t.stdout = "Executed 0 programs in 0.0s (0 generator failures)\n") ∧
    ∃ t, run (.fuzz .blank) = some t ∧ t.Failed := by
  intro env files run
  obtain ⟨htriage, hrefused, hran⟩ := perform_all_or_nothing env (fun _ => 1) none none files none
  have hsource : Source.Chosen none none files .builtIn :=
    .builtIn rfl (fun _ h => by cases h) (by decide +kernel)
  refine ⟨?_, ?_, ?_, ?_, ?_, ?_⟩
  · -- the line in the middle has a tag but no number
    obtain ⟨t, ht, ⟨hworld, hwhole, hfails⟩, -⟩ := htriage ⟨"log", .tagged, .plain⟩
    have hbytes : files.read "log" = .ok (bytesOf "pass: a\nfail: b\npass: c\n") := by
      decide +kernel
    have hlog : LogText files "log" "pass: a\nfail: b\npass: c\n" :=
      .written hbytes (by decide +kernel)
    have hmalformed : Tagged.Malformed "fail: b" :=
      Tagged.exists_classify_eq_error_iff.1 ⟨.malformedFailLine "fail: b", by decide +kernel⟩
    have hexit : t.exit ≠ 0 :=
      hfails.2 (.inr ⟨rfl, _, "fail: b", hlog, by decide +kernel, hmalformed⟩)
    exact ⟨t, ht, hwhole.resolve_right fun h => hexit h.1, hworld⟩
  · -- the second pass is the first one again, and passes are printed before failures
    obtain ⟨t, ht, htriages, -⟩ := htriage ⟨"tags", .tagged, .ansi⟩
    have hbytes : files.read "tags" = .ok (bytesOf "fail: b Construct: 7\npass: z\npass: z") := by
      decide +kernel
    have hlog : LogText files "tags" "fail: b Construct: 7\npass: z\npass: z" :=
      .written hbytes (by decide +kernel)
    obtain ⟨hexit, hout⟩ := htriages.of_report hlog (r := ⟨[(.pass, [(.text "z", ["z"])]),
      (.fail, [(.number 7, ["b Construct: 7"])])], .flat, by decide +kernel⟩) (by decide +kernel)
    refine ⟨t, ht, hexit, hout.trans ?_⟩
    decide +kernel
  · -- both messages of one number stand on one line, by their bytes
    obtain ⟨t, ht, htriages, -⟩ := htriage ⟨"marks", .checker, .plain⟩
    have hbytes : files.read "marks" = .ok (bytesOf
        "[Checker] Fail! 7 (b)\n[Checker] Pass! 1 (x)\n[Checker] Fail! 7 (a)\n") := by
      decide +kernel
    have hlog : LogText files "marks"
        "[Checker] Fail! 7 (b)\n[Checker] Pass! 1 (x)\n[Checker] Fail! 7 (a)\n" :=
      .written hbytes (by decide +kernel)
    obtain ⟨hexit, hout⟩ := htriages.of_report hlog (r := ⟨[(.pass, [(.number 1, ["x"])]),
      (.fail, [(.number 7, ["a", "b"])])], .keyed, by decide +kernel⟩) (by decide +kernel)
    refine ⟨t, ht, hexit, hout.trans ?_⟩
    decide +kernel
  · -- four is no level of the compiler, which is found out before anything is run
    exact hrefused _ ⟨_, .refused hsource .builtIn (.givenLevel rfl rfl rfl)
      (.levelOutOfRange (by decide))⟩
  · -- nothing is begun without time, so the tools that are not there are not missed
    have hbudget : FuzzOptions.Lasts { FuzzOptions.blank with seconds := some 0 } .default
        (.ofSecs (0 : UInt64).toNat) := .given rfl
    have hjob : Resolves none none files { FuzzOptions.blank with seconds := some 0 }
        (.ok (builtInJob (.ofSecs 0))) :=
      .campaign hsource .builtIn ⟨hbudget, .setLevel rfl rfl rfl, .set rfl, rfl, rfl, rfl, rfl⟩
    have hresult : ((Session.start files).run env 1 (builtInJob (.ofSecs 0))).map Prod.fst =
        some (.ok ⟨0, 0, .ofSecs 0, .completed, false, .empty⟩) := by
      decide +kernel
    obtain ⟨⟨result, s⟩, hrun, hsame⟩ := Option.map_eq_some_iff.1 hresult
    obtain ⟨t, ht, -, hsummary, -⟩ := hran _ _ hjob result s hrun
    obtain ⟨hexit, hout, -⟩ := hsummary _ hsame
    refine ⟨t, ht, hexit, hout.trans ?_⟩
    decide +kernel
  · have hjob : Resolves none none files .blank (.ok (builtInJob (.ofSecs 60))) :=
      .campaign hsource .builtIn ⟨.set rfl, .setLevel rfl rfl rfl, .set rfl, rfl, rfl, rfl, rfl⟩
    have hresult : ((Session.start files).run env 1 (builtInJob (.ofSecs 60))).map Prod.fst =
        some (.error (.spawn .generate "csmith" .noSuchFile)) := by
      decide +kernel
    obtain ⟨⟨result, s⟩, hrun, hsame⟩ := Option.map_eq_some_iff.1 hresult
    obtain ⟨t, ht, -, -, herror⟩ := hran _ _ hjob result s hrun
    exact ⟨t, ht, herror _ hsame⟩

end CompilerFuzz.CommandLine
