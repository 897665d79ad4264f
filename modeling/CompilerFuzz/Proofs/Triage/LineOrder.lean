/-
  CompilerFuzz.Proofs.Triage.LineOrder

  What the order of the lines means for a report: nothing, except where a payload replaces
  another one, and there only which line comes last. Two logs with the same lines, in any order
  and repeated in any way, are both rejected or both have a report; what stands under a key is
  determined by the set of the payloads that are entered there (`Merge.held_accumulate_congr`),
  or by the last of them (`Merge.held_replace`). In the tagged dialect every payload counts. In
  the checker dialect only the messages of passes replace each other, and only under one number.
-/
import CompilerFuzz.Proofs.Triage.Deduplication
import CompilerFuzz.Proofs.Triage.RoundTrip

namespace CompilerFuzz.Triage

open CompilerFuzz.Text

/-- Two logs say the same last, wherever a payload replaces another one. -/
def Classifier.SameLast (c : Classifier) (xs ys : List String) : Prop :=
  ∀ s, c.merge s = .replace → ∀ k,
    (c.payloads s k xs).getLast? = (c.payloads s k ys).getLast?

/-- Two neighbouring lines of which only one says something under a key may change places. -/
theorem Classifier.payloads_swap {c : Classifier} {s : Severity} {k : SortKey} {x y : String}
    (h : c.payload? s k x = none ∨ c.payload? s k y = none) (earlier later : List String) :
    c.payloads s k (earlier ++ x :: y :: later) = c.payloads s k (earlier ++ y :: x :: later) := by
  unfold payloads
  rw [List.filterMap_append, List.filterMap_append]
  congr 1
  rcases h with hx | hy
  · rw [List.filterMap_cons_none hx, List.filterMap_cons, List.filterMap_cons,
      List.filterMap_cons_none hx]
  · rw [List.filterMap_cons, List.filterMap_cons_none hy, List.filterMap_cons_none hy,
      List.filterMap_cons]

namespace Report

/-! ## Logs with the same lines -/

section SameLines

variable {c : Classifier} {a b : String} (hlines : ∀ line, line ∈ rawLines a ↔ line ∈ rawLines b)
include hlines

theorem exists_build_congr :
    (∃ r, build c (LogLines.ofText a) = .ok r) ↔ ∃ r, build c (LogLines.ofText b) = .ok r := by
  simp only [exists_build_ofText_iff, hlines]

theorem mem_payloads_congr (s : Severity) (k : SortKey) (p : String) :
    p ∈ c.payloads s k (rawLines a) ↔ p ∈ c.payloads s k (rawLines b) := by
  simp only [Classifier.mem_payloads_iff, hlines]

/-- Logs with the same lines that say the same last have one report. -/
theorem eq_of_sameLast (hlast : c.SameLast (rawLines a) (rawLines b)) {r r' : Report}
    (hr : build c (LogLines.ofText a) = .ok r) (hr' : build c (LogLines.ofText b) = .ok r') :
    r = r' := by
  have hlayout : r.layout = r'.layout := (layout_of_build hr).trans (layout_of_build hr').symm
  refine eq_of_payloads?_eq hlayout fun s k => ?_
  rw [payloads?_of_build_ofText hr, payloads?_of_build_ofText hr']
  exact Merge.held_congr _ (mem_payloads_congr hlines s k) fun hs => hlast s hs k

end SameLines

/-! ## The two dialects -/

theorem tagged_sameLast (xs ys : List String) : Tagged.classifier.SameLast xs ys := by
  intro s hs
  cases hs

/-- In the checker dialect only the messages of passes are compared, number by number. -/
theorem checker_sameLast {xs ys : List String}
    (h : ∀ n, (Checker.classifier.payloads .pass (.number n) xs).getLast? =
      (Checker.classifier.payloads .pass (.number n) ys).getLast?) :
    Checker.classifier.SameLast xs ys := by
  intro s hs k
  cases s with
  | pass =>
    cases k with
    | number n => exact h n
    | text t =>
      -- no line says a verdict under a text
      have hnone : ∀ lines, Checker.classifier.payloads .pass (.text t) lines = [] := by
        intro lines
        refine List.eq_nil_iff_forall_not_mem.2 fun p hp => ?_
        obtain ⟨line, -, hv⟩ := Classifier.mem_payloads_iff.1 hp
        obtain ⟨n, -, hn⟩ := (Checker.canonical_of_verdict? (Except.ok.inj hv)).number
        cases hn
      rw [hnone, hnone]
  | warn => cases hs
  | fail => cases hs

theorem checker_sameLast_swap {x y : String}
    (h : ∀ n p q, Checker.verdict? x = some ⟨.pass, .number n, p⟩ →
      Checker.verdict? y ≠ some ⟨.pass, .number n, q⟩) (earlier later : List String) :
    Checker.classifier.SameLast (earlier ++ x :: y :: later) (earlier ++ y :: x :: later) := by
  refine checker_sameLast fun n => ?_
  have hone : Checker.classifier.payload? .pass (.number n) x = none ∨
      Checker.classifier.payload? .pass (.number n) y = none := by
    rw [or_iff_not_imp_left]
    intro hx
    refine Option.eq_none_iff_forall_ne_some.2 fun q hq => ?_
    obtain ⟨p, hp⟩ := Option.ne_none_iff_exists'.1 hx
    have hsays := Except.ok.inj (Classifier.payload?_eq_some_iff.1 hp)
    exact h n p q hsays (Except.ok.inj (Classifier.payload?_eq_some_iff.1 hq))
  rw [Classifier.payloads_swap hone]

theorem build_checker_congr {a b : String} (hlines : ∀ line, line ∈ rawLines a ↔ line ∈ rawLines b)
    (hlast : Checker.classifier.SameLast (rawLines a) (rawLines b)) :
    build Checker.classifier (LogLines.ofText a) = build Checker.classifier (LogLines.ofText b) := by
  obtain ⟨r, hr⟩ := exists_build_checker (LogLines.ofText a)
  obtain ⟨r', hr'⟩ := exists_build_checker (LogLines.ofText b)
  rw [hr, hr', eq_of_sameLast hlines hlast hr hr']

/-- Two logs with the same lines, in any order and repeated in any way, are both rejected or both
    have a report; and if they say the same last wherever a payload replaces another one, their
    reports are equal and print the same. In the tagged dialect this needs nothing more. In the
    checker dialect the last message of the passes of each number must be the same; two
    neighbouring lines may change places if they are not passes of one number. -/
theorem build_sameLines {a b : String} (hlines : ∀ line, line ∈ rawLines a ↔ line ∈ rawLines b) :
    (∀ c : Classifier,
      ((∃ r, build c (LogLines.ofText a) = .ok r) ↔ ∃ r, build c (LogLines.ofText b) = .ok r) ∧
      ∀ r r', build c (LogLines.ofText a) = .ok r → build c (LogLines.ofText b) = .ok r' →
        c.SameLast (rawLines a) (rawLines b) → r = r' ∧ ∀ mode, r.render mode = r'.render mode) ∧
    (∀ r, build Tagged.classifier (LogLines.ofText a) = .ok r →
      ∃ r', build Tagged.classifier (LogLines.ofText b) = .ok r' ∧ r' = r ∧
        ∀ mode, bytesOf (r'.render mode) = bytesOf (r.render mode)) ∧
    ((∀ n, (Checker.classifier.payloads .pass (.number n) (rawLines a)).getLast? =
        (Checker.classifier.payloads .pass (.number n) (rawLines b)).getLast?) →
      build Checker.classifier (LogLines.ofText a) =
        build Checker.classifier (LogLines.ofText b)) ∧
    ∀ earlier x y later, rawLines a = earlier ++ x :: y :: later →
      rawLines b = earlier ++ y :: x :: later →
      (∀ n p q, Checker.verdict? x = some ⟨.pass, .number n, p⟩ →
        Checker.verdict? y ≠ some ⟨.pass, .number n, q⟩) →
      build Checker.classifier (LogLines.ofText a) =
        build Checker.classifier (LogLines.ofText b) := by
  refine ⟨fun c => ⟨exists_build_congr hlines, fun r r' hr hr' hlast => ?_⟩, fun r hr => ?_, ?_, ?_⟩
  · obtain rfl := eq_of_sameLast hlines hlast hr hr'
    exact ⟨rfl, fun _ => rfl⟩
  · obtain ⟨r', hr'⟩ := (exists_build_congr hlines).1 ⟨r, hr⟩
    obtain rfl := eq_of_sameLast hlines (tagged_sameLast _ _) hr hr'
    exact ⟨r, hr', rfl, fun _ => rfl⟩
  · exact fun hlast => build_checker_congr hlines (checker_sameLast hlast)
  · -- lines that change places are not passes of one number, so no last message changes
    intro earlier x y later ha hb hxy
    refine build_checker_congr hlines ?_
    rw [ha, hb]
    exact checker_sameLast_swap hxy earlier later

/-- The lines come in another order, one of them twice, with another ending. -/
theorem sameLines_of_shuffled_log :
    let a := "[Checker] Pass! 1 (x)\npass: z\n[Checker] Fail! 7 (b)\nfail: w Construct: 2\n"
    let b := "fail: w Construct: 2\r\n[Checker] Fail! 7 (b)\r\n[Checker] Pass! 1 (x)\n" ++
      "pass: z\n[Checker] Fail! 7 (b)"
    (∀ line, line ∈ rawLines a ↔ line ∈ rawLines b) ∧
    (∃ r, build Tagged.classifier (LogLines.ofText a) = .ok r ∧
      build Tagged.classifier (LogLines.ofText b) = .ok r ∧
      r.render .plain = "[pass] z\n[fail] w Construct: 2\n") ∧
    build Checker.classifier (LogLines.ofText a) =
      build Checker.classifier (LogLines.ofText b) := by
  intro a b
  have ha : rawLines a = ["[Checker] Pass! 1 (x)", "pass: z", "[Checker] Fail! 7 (b)",
      "fail: w Construct: 2"] := by
    decide +kernel
  have hb : rawLines b = ["fail: w Construct: 2", "[Checker] Fail! 7 (b)", "[Checker] Pass! 1 (x)",
      "pass: z", "[Checker] Fail! 7 (b)"] := by
    decide +kernel
  have hlines : ∀ line, line ∈ rawLines a ↔ line ∈ rawLines b := by
    intro line
    rw [ha, hb]
    simp only [List.mem_cons, List.not_mem_nil]
    tauto
  have hr : build Tagged.classifier (LogLines.ofText a) =
      .ok ⟨[(.pass, [(.text "z", ["z"])]), (.fail, [(.number 2, ["w Construct: 2"])])], .flat,
        by decide +kernel⟩ := by
    decide +kernel
  obtain ⟨-, htagged, hchecker, -⟩ := build_sameLines hlines
  obtain ⟨r', hr', rfl, -⟩ := htagged _ hr
  refine ⟨hlines, ⟨_, hr, hr', by decide +kernel⟩, hchecker fun n => ?_⟩
  -- one line says a pass, and the others do not
  have hpass : Checker.classifier.classify "[Checker] Pass! 1 (x)" =
      .ok (some ⟨.pass, .number 1, "x"⟩) := by decide +kernel
  have hfail : Checker.classifier.classify "[Checker] Fail! 7 (b)" =
      .ok (some ⟨.fail, .number 7, "b"⟩) := by decide +kernel
  have hz : Checker.classifier.classify "pass: z" = .ok none := by decide +kernel
  have hw : Checker.classifier.classify "fail: w Construct: 2" = .ok none := by decide +kernel
  rw [ha, hb]
  simp [Classifier.payloads, Classifier.payload?, List.filterMap_cons, hpass, hfail, hz, hw]

end Report

end CompilerFuzz.Triage
