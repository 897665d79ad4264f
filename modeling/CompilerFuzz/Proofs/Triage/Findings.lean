/-
  CompilerFuzz.Proofs.Triage.Findings

  What a line of the checker dialect says. A text reads as a verdict at its front if it is put
  together from a mark, a word, a number and a message in parentheses (`Checker.Reading`), and
  the message ends with the last parenthesis that it can end with. The least position with such
  a reading decides what the line says (`Checker.Says`), also if its digits make no number.

  The same is found by a backtracking search for the pattern of a verdict, `Checker.pattern`
  (`Checker.captures?_pattern`): where a shorter run of digits is taken another digit follows,
  and no blank, and the longest message with a parenthesis behind it is the one that ends last.
-/
import Mathlib.Data.List.TakeWhile
import CompilerFuzz.Proofs.Triage.Constructs
import CompilerFuzz.Text.Pattern
import CompilerFuzz.Triage.Checker

namespace CompilerFuzz.Triage.Checker

open CompilerFuzz.Text

theorem classifier_classify (text : String) : classifier.classify text = .ok (verdict? text) := rfl

/-! ## Messages -/

theorem messageHere?_cons (c : Char) (cs : List Char) :
    messageHere? (c :: cs) =
      if c = '\n' then none
      else ((messageHere? cs).map (c :: ·)).or (if c = ')' then some [] else none) := by
  unfold messageHere?
  by_cases hc : c = '\n'
  · subst hc
    rfl
  · rw [if_neg hc, List.takeWhile_cons_of_pos (by simpa using hc), List.reverse_cons,
      List.dropWhile_append]
    cases (cs.takeWhile (· ≠ '\n')).reverse.dropWhile (· ≠ ')') with
    | nil => by_cases hclosing : c = ')' <;> simp [hclosing]
    | cons p before => simp

theorem messageHere?_eq_none_iff {cs : List Char} :
    messageHere? cs = none ↔ ')' ∉ cs.takeWhile (· ≠ '\n') := by
  induction cs with
  | nil => simp [messageHere?]
  | cons c cs ih =>
    rw [messageHere?_cons]
    by_cases hc : c = '\n'
    · subst hc
      simp
    · have hline : (c :: cs).takeWhile (· ≠ '\n') = c :: cs.takeWhile (· ≠ '\n') :=
        List.takeWhile_cons_of_pos (by simpa using hc)
      rw [if_neg hc, hline, List.mem_cons, not_or, ← ih, Option.or_eq_none_iff,
        Option.map_eq_none_iff]
      by_cases hclosing : c = ')'
      · simp [hclosing]
      · simp [hclosing, Ne.symm hclosing]

theorem decide_ne_of_notMem {x : Char} {cs : List Char} (h : x ∉ cs) :
    ∀ c ∈ cs, decide (c ≠ x) = true := by
  intro c hc
  apply decide_eq_true
  rintro rfl
  exact h hc

/-- Where no parenthesis follows on the line, the message is what stands before this one. -/
theorem messageHere?_append {m rest : List Char} (hline : '\n' ∉ m)
    (hlast : ')' ∉ rest.takeWhile (· ≠ '\n')) : messageHere? (m ++ ')' :: rest) = some m := by
  have htail : ')' ∉ (rest.takeWhile (· ≠ '\n')).reverse := fun h =>
    hlast (List.mem_reverse.1 h)
  have htake : (m ++ ')' :: rest).takeWhile (· ≠ '\n') = m ++ ')' :: rest.takeWhile (· ≠ '\n') := by
    rw [List.takeWhile_append_of_pos (decide_ne_of_notMem hline),
      List.takeWhile_cons_of_pos (by decide)]
  have hdrop : (m ++ ')' :: rest.takeWhile (· ≠ '\n')).reverse.dropWhile (· ≠ ')') =
      ')' :: m.reverse := by
    rw [List.reverse_append, List.reverse_cons, List.append_assoc]
    exact dropWhile_append_stop (decide_ne_of_notMem htail) (by simp)
  unfold messageHere?
  rw [htake, hdrop]
  dsimp only
  rw [List.reverse_reverse]

/-- Cut anywhere, a run of characters ends where it ended before. -/
theorem takeWhile_of_takeWhile_eq_append {p : Char → Bool} {cs front tail : List Char}
    (h : cs.takeWhile p = front ++ tail) : (tail ++ cs.dropWhile p).takeWhile p = tail := by
  apply takeWhile_append_stop
  · intro c hc
    have hrun : c ∈ cs.takeWhile p := h ▸ List.mem_append_right _ hc
    exact List.mem_takeWhile_imp hrun
  · exact eq_false_of_mem_head?_dropWhile

/-- The message stands before the last parenthesis of the line. -/
theorem exists_of_messageHere? {cs m : List Char} (h : messageHere? cs = some m) :
    ∃ rest, cs = m ++ ')' :: rest ∧ '\n' ∉ m ∧ ')' ∉ rest.takeWhile (· ≠ '\n') := by
  have hmem : ')' ∈ cs.takeWhile (· ≠ '\n') := by
    by_contra hnone
    rw [messageHere?_eq_none_iff.2 hnone] at h
    cases h
  obtain ⟨m', tail, hfront, hlast⟩ := exists_last_occurrence hmem
  have hcs : cs = m' ++ ')' :: (tail ++ cs.dropWhile (· ≠ '\n')) := by
    rw [← List.cons_append, ← List.append_assoc, ← hfront, List.takeWhile_append_dropWhile]
  have hm : '\n' ∉ m' := by
    intro hbreak
    have hrun : '\n' ∈ cs.takeWhile (· ≠ '\n') := hfront ▸ List.mem_append_left _ hbreak
    have hkept := List.mem_takeWhile_imp hrun
    exact of_decide_eq_true hkept rfl
  -- what the last parenthesis leaves of the line ends where the line does
  have htail : (tail ++ cs.dropWhile (· ≠ '\n')).takeWhile (· ≠ '\n') = tail := by
    rw [List.append_cons] at hfront
    exact takeWhile_of_takeWhile_eq_append hfront
  have hlater : ')' ∉ (tail ++ cs.dropWhile (· ≠ '\n')).takeWhile (· ≠ '\n') := by
    rwa [htail]
  rw [hcs, messageHere?_append hm hlater] at h
  obtain rfl := Option.some.inj h
  exact ⟨_, hcs, hm, hlater⟩

theorem messageHere?_eq_some_iff {cs m : List Char} :
    messageHere? cs = some m ↔
      ∃ rest, cs = m ++ ')' :: rest ∧ '\n' ∉ m ∧ ')' ∉ rest.takeWhile (· ≠ '\n') := by
  constructor
  · exact exists_of_messageHere?
  · rintro ⟨rest, rfl, hline, hlast⟩
    exact messageHere?_append hline hlast

/-! ## Readings -/

/-- The text reads as a verdict at its front, with these parts, and `rest` behind it. -/
structure Reading (cs : List Char) (f : Finding) (rest : List Char) : Prop where
  /-- The checker writes `Pass` and `Fail` only. -/
  severity : f.severity ≠ .warn
  digits_ne_nil : f.digits ≠ []
  digits : ∀ d ∈ f.digits, isDecimalDigit d = true
  oneLine : '\n' ∉ f.message
  text : cs = "[Checker] ".toList ++ (word f.severity ++ ("! ".toList ++
    (f.digits ++ (" (".toList ++ (f.message ++ ')' :: rest)))))

/-- The least position that has a reading is `i`, and the longest message there is that of `f`:
    no parenthesis follows it on the same line. -/
structure FirstReading (cs : List Char) (i : Nat) (f : Finding) : Prop where
  reads : ∃ rest, Reading (cs.drop i) f rest ∧ ')' ∉ rest.takeWhile (· ≠ '\n')
  first : ∀ j < i, ∀ g rest, ¬ Reading (cs.drop j) g rest

/-- What is read behind the word of a severity ends where the digits end. -/
theorem findingAfter?_run {ds : List Char} (hne : ds ≠ [])
    (hdigits : ∀ d ∈ ds, isDecimalDigit d = true) (s : Severity) (body : List Char) :
    findingAfter? s ("! ".toList ++ (ds ++ (" (".toList ++ body))) =
      (messageHere? body).map fun m => ⟨s, ds, m⟩ := by
  -- the blank behind the number ends the run of digits
  have hblank : ∀ c ∈ (" (".toList ++ body).head?, isDecimalDigit c = false := by
    intro c hc
    obtain rfl : ' ' = c := Option.some.inj hc
    decide +kernel
  have hbody : after? " (".toList (" (".toList ++ body) = some body := after?_eq_some_iff.2 rfl
  unfold findingAfter?
  rw [after?_eq_some_iff.2 rfl]
  dsimp only
  rw [takeWhile_append_stop hdigits hblank, dropWhile_append_stop hdigits hblank, hbody]
  obtain ⟨d, ds, rfl⟩ := List.exists_cons_of_ne_nil hne
  rfl

theorem findingAfter?_eq_some_iff {s : Severity} {cs : List Char} {f : Finding} :
    findingAfter? s cs = some f ↔
      f.severity = s ∧ f.digits ≠ [] ∧ (∀ d ∈ f.digits, isDecimalDigit d = true) ∧
        ∃ body, cs = "! ".toList ++ (f.digits ++ (" (".toList ++ body)) ∧
          messageHere? body = some f.message := by
  constructor
  · -- the reader takes an exclamation mark, digits, a parenthesis and a message, in this order
    intro h
    unfold findingAfter? at h
    split at h
    · cases h
    · next rest hrest =>
      split at h
      · cases h
      · next hrun =>
        split at h
        · cases h
        · next body hbody =>
          obtain ⟨m, hm, rfl⟩ := Option.map_eq_some_iff.1 h
          refine ⟨rfl, hrun, fun d hd => List.mem_takeWhile_imp hd, body, ?_, hm⟩
          rw [← after?_eq_some_iff.1 hbody, List.takeWhile_append_dropWhile]
          exact after?_eq_some_iff.1 hrest
  · rintro ⟨rfl, hne, hdigits, body, rfl, hm⟩
    rw [findingAfter?_run hne hdigits, hm]
    rfl

theorem findingHere?_word {s : Severity} (hs : s ≠ .warn) (rest : List Char) :
    findingHere? ("[Checker] ".toList ++ (word s ++ rest)) = findingAfter? s rest := by
  unfold findingHere?
  rw [after?_eq_some_iff.2 rfl]
  dsimp only
  cases s with
  | pass => rw [after?_eq_some_iff.2 rfl]
  | warn => exact absurd rfl hs
  | fail =>
    have hpass : after? (word .pass) (word .fail ++ rest) = none := rfl
    rw [hpass, after?_eq_some_iff.2 rfl]

/-- What is found behind the mark is found behind the word of its severity. -/
theorem findingHere?_eq_some {cs : List Char} {f : Finding} (h : findingHere? cs = some f) :
    f.severity ≠ .warn ∧ ∃ rest, cs = "[Checker] ".toList ++ (word f.severity ++ rest) ∧
      findingAfter? f.severity rest = some f := by
  unfold findingHere? at h
  split at h
  · cases h
  · next body hbody =>
    obtain rfl := after?_eq_some_iff.1 hbody
    split at h
    · next rest hrest =>
      obtain rfl := after?_eq_some_iff.1 hrest
      have hs : f.severity = .pass := (findingAfter?_eq_some_iff.1 h).1
      rw [hs]
      exact ⟨nofun, rest, rfl, h⟩
    · split at h
      · next rest hrest =>
        obtain rfl := after?_eq_some_iff.1 hrest
        have hs : f.severity = .fail := (findingAfter?_eq_some_iff.1 h).1
        rw [hs]
        exact ⟨by decide, rest, rfl, h⟩
      · cases h

theorem findingHere?_eq_some_iff {cs : List Char} {f : Finding} :
    findingHere? cs = some f ↔ ∃ rest, Reading cs f rest ∧ ')' ∉ rest.takeWhile (· ≠ '\n') := by
  constructor
  · intro h
    obtain ⟨hs, after, rfl, hafter⟩ := findingHere?_eq_some h
    obtain ⟨-, hne, hdigits, body, rfl, hm⟩ := findingAfter?_eq_some_iff.1 hafter
    obtain ⟨rest, rfl, hline, hlast⟩ := messageHere?_eq_some_iff.1 hm
    exact ⟨rest, ⟨hs, hne, hdigits, hline, rfl⟩, hlast⟩
  · rintro ⟨rest, ⟨hs, hne, hdigits, hline, rfl⟩, hlast⟩
    rw [findingHere?_word hs, findingAfter?_eq_some_iff]
    exact ⟨rfl, hne, hdigits, _, rfl, messageHere?_eq_some_iff.2 ⟨rest, rfl, hline, hlast⟩⟩

/-- Where there is a reading there is one with the longest message. -/
theorem findingHere?_eq_none_iff {cs : List Char} :
    findingHere? cs = none ↔ ∀ f rest, ¬ Reading cs f rest := by
  constructor
  · rintro h f rest ⟨hs, hne, hdigits, hline, rfl⟩
    rw [findingHere?_word hs, findingAfter?_run hne hdigits, Option.map_eq_none_iff,
      messageHere?_eq_none_iff] at h
    apply h
    rw [List.takeWhile_append_of_pos (decide_ne_of_notMem hline)]
    exact List.mem_append_right _ List.mem_cons_self
  · intro h
    rw [Option.eq_none_iff_forall_ne_some]
    intro f hf
    obtain ⟨rest, hreading, -⟩ := findingHere?_eq_some_iff.1 hf
    exact h f rest hreading

theorem leftmost?_findingHere?_eq_some_iff {cs : List Char} {f : Finding} :
    leftmost? findingHere? cs = some f ↔ ∃ i, FirstReading cs i f := by
  rw [leftmost?_eq_some_iff_drop]
  simp only [findingHere?_eq_some_iff, findingHere?_eq_none_iff]
  constructor
  · rintro ⟨i, hreads, hfirst⟩
    exact ⟨i, hreads, hfirst⟩
  · rintro ⟨i, hreads, hfirst⟩
    exact ⟨i, hreads, hfirst⟩

theorem leftmost?_findingHere?_eq_none_iff {cs : List Char} :
    leftmost? findingHere? cs = none ↔ ∀ i f rest, ¬ Reading (cs.drop i) f rest := by
  rw [leftmost?_eq_none_iff_drop]
  simp only [findingHere?_eq_none_iff]

/-! ## The search pattern -/

/-- The pattern of a verdict: `[Checker]`, a captured word, a captured number of any script, and
    a captured message in parentheses. -/
def pattern : Pattern :=
  .seq (.word "[Checker] ".toList) <|
  .seq (.group (.alt (.word (word .pass)) (.word (word .fail)))) <|
  .seq (.word "! ".toList) <|
  .seq (.group (.many 1 isDecimalDigit)) <|
  .seq (.word " (".toList) <|
  .seq (.group (.many 0 (· ≠ '\n'))) (.word [')'])

/-- What the groups of the pattern capture in a finding. -/
def Finding.captures (f : Finding) : List (List Char) := [word f.severity, f.digits, f.message]

/-- The longest run on the line that a parenthesis follows is the message. -/
theorem greedy_message {β : Type} (g : List Char → β) (cs : List Char) :
    (Pattern.greedy (· ≠ '\n') 0 cs fun m rest => (after? [')'] rest).bind fun _ => some (g m)) =
      (messageHere? cs).map g := by
  induction cs generalizing g with
  | nil => rfl
  | cons c cs ih =>
    rw [messageHere?_cons]
    unfold Pattern.greedy
    by_cases hc : c = '\n'
    · subst hc
      rfl
    · rw [if_neg hc, if_pos (by simpa using hc), Nat.zero_sub, ih fun m => g (c :: m)]
      by_cases hclosing : c = ')'
      · subst hclosing
        cases messageHere? cs <;> rfl
      · cases messageHere? cs <;> simp [after?, hclosing]

/-- Behind a run of digits that could be longer stands a digit, and no blank. -/
theorem after?_of_isDecimalDigit {c : Char} (hc : isDecimalDigit c = true) (rest : List Char) :
    after? " (".toList (c :: rest) = none := by
  have hblank : c ≠ ' ' := by
    rintro rfl
    revert hc
    decide +kernel
  exact if_neg hblank

/-- Behind the word the pattern finds what is read there. -/
theorem bind_after_word (s : Severity) (cs : List Char) :
    ((after? "! ".toList cs).bind fun rest => Pattern.greedy isDecimalDigit 1 rest fun ds rest =>
        (after? " (".toList rest).bind fun rest => Pattern.greedy (· ≠ '\n') 0 rest fun m rest =>
          (after? [')'] rest).bind fun _ => some [word s, ds, m]) =
      (findingAfter? s cs).map Finding.captures := by
  unfold findingAfter?
  cases after? "! ".toList cs with
  | none => rfl
  | some rest =>
    simp only [Option.bind_some, greedy_message]
    cases hrun : rest.takeWhile isDecimalDigit with
    | nil =>
      apply Pattern.greedy_eq_none
      rw [hrun]
      exact Nat.one_pos
    | cons d ds =>
      -- no shorter run leads to a match, so the search does not go back
      have hshorter : ∀ (run : List Char) c rest, isDecimalDigit c = true →
          ((after? " (".toList (c :: rest)).bind fun body =>
            (messageHere? body).map fun m => [word s, run, m]) = none := by
        intro run c rest hc
        rw [after?_of_isDecimalDigit hc]
        rfl
      have hone : 1 ≤ (rest.takeWhile isDecimalDigit).length := by
        rw [hrun]
        exact Nat.succ_pos _
      rw [Pattern.greedy_eq_longest hone (.inr hshorter), hrun]
      cases after? " (".toList (rest.dropWhile isDecimalDigit) with
      | none => rfl
      | some body =>
        dsimp only [Option.bind_some]
        rw [Option.map_map]
        rfl

theorem capturesHere?_pattern (cs : List Char) :
    pattern.capturesHere? cs = (findingHere? cs).map Finding.captures := by
  unfold Pattern.capturesHere? pattern findingHere?
  simp only [Pattern.first?, Pattern.Way.append, Pattern.Way.capture, List.nil_append,
    List.cons_append, List.append_nil, bind_after_word]
  cases after? "[Checker] ".toList cs with
  | none => rfl
  | some rest =>
    rw [Option.bind_some]
    dsimp only
    cases hpass : after? (word .pass) rest with
    | none =>
      rw [Option.bind_none, Option.none_or]
      cases after? (word .fail) rest <;> rfl
    | some body =>
      -- a text that starts with one of the two words does not start with the other
      obtain rfl := after?_eq_some_iff.1 hpass
      have hfail : after? (word .fail) (word .pass ++ body) = none := rfl
      rw [hfail, Option.bind_none, Option.or_none]
      rfl

theorem captures?_pattern (cs : List Char) :
    pattern.captures? cs = (leftmost? findingHere? cs).map Finding.captures :=
  Pattern.captures?_eq_map capturesHere?_pattern cs

/-! ## What a line says -/

/-- What a text says in the checker dialect. -/
inductive Says (cs : List Char) : Option Verdict → Prop
  /-- No position has a reading. -/
  | nothing (h : ∀ i f rest, ¬ Reading (cs.drop i) f rest) : Says cs none
  /-- The first reading has digits that make no number of 64 bits. A later one does not count. -/
  | noNumber {i f} (h : FirstReading cs i f) (hd : ¬ Tagged.IsWord f.digits) : Says cs none
  | verdict {i f} (h : FirstReading cs i f) (hd : Tagged.IsWord f.digits) :
      Says cs (some ⟨f.severity, .number (numeralValue f.digits), String.ofList (trim f.message)⟩)

theorem verdict?_eq_some_iff {text : String} {v : Verdict} :
    verdict? text = some v ↔ ∃ i f, FirstReading text.toList i f ∧ Tagged.IsWord f.digits ∧
      v = ⟨f.severity, .number (numeralValue f.digits), String.ofList (trim f.message)⟩ := by
  unfold verdict?
  constructor
  · intro h
    split at h
    · cases h
    · next f hf =>
      obtain ⟨i, hfirst⟩ := leftmost?_findingHere?_eq_some_iff.1 hf
      split at h
      · cases h
      · next n hn =>
        obtain ⟨-, hword, rfl⟩ := Tagged.readNumeral?_eq_some_iff.1 hn
        exact ⟨i, f, hfirst, hword, (Option.some.inj h).symm⟩
  · rintro ⟨i, f, hfirst, hword, rfl⟩
    obtain ⟨rest, hreading, -⟩ := hfirst.reads
    rw [leftmost?_findingHere?_eq_some_iff.2 ⟨i, hfirst⟩]
    dsimp only
    rw [Tagged.readNumeral?_eq_some_iff.2 ⟨hreading.digits_ne_nil, hword, rfl⟩]

/-- There is a first reading wherever there is one. -/
theorem exists_firstReading_iff {cs : List Char} :
    (∃ i f, FirstReading cs i f) ↔ ∃ i f rest, Reading (cs.drop i) f rest := by
  constructor
  · rintro ⟨i, f, ⟨rest, hreading, -⟩, -⟩
    exact ⟨i, f, rest, hreading⟩
  · rintro ⟨i, f, rest, hreading⟩
    cases hfound : leftmost? findingHere? cs with
    | none => exact absurd hreading (leftmost?_findingHere?_eq_none_iff.1 hfound i f rest)
    | some g =>
      obtain ⟨j, hfirst⟩ := leftmost?_findingHere?_eq_some_iff.1 hfound
      exact ⟨j, g, hfirst⟩

/-- A text has one first reading at most. -/
theorem FirstReading.eq {cs : List Char} {i j : Nat} {f g : Finding} (hf : FirstReading cs i f)
    (hg : FirstReading cs j g) : f = g := by
  have hsome := leftmost?_findingHere?_eq_some_iff.2 ⟨i, hf⟩
  rw [leftmost?_findingHere?_eq_some_iff.2 ⟨j, hg⟩] at hsome
  exact (Option.some.inj hsome).symm

/-- A text says what is read out of it. -/
theorem says_iff {text : String} {v : Option Verdict} :
    Says text.toList v ↔ verdict? text = v := by
  constructor
  · intro h
    cases h with
    | nothing hnone =>
      rw [Option.eq_none_iff_forall_ne_some]
      intro v hv
      obtain ⟨i, f, ⟨⟨rest, hreading, -⟩, -⟩, -⟩ := verdict?_eq_some_iff.1 hv
      exact hnone i f rest hreading
    | noNumber hfirst hd =>
      rw [Option.eq_none_iff_forall_ne_some]
      intro v hv
      obtain ⟨j, g, hg, hword, -⟩ := verdict?_eq_some_iff.1 hv
      rw [hfirst.eq hg] at hd
      exact hd hword
    | verdict hfirst hd => exact verdict?_eq_some_iff.2 ⟨_, _, hfirst, hd, rfl⟩
  · rintro rfl
    cases hv : verdict? text with
    | some v =>
      obtain ⟨i, f, hfirst, hword, rfl⟩ := verdict?_eq_some_iff.1 hv
      exact .verdict hfirst hword
    | none =>
      -- nothing is read: there is no reading, or the digits of the first one are too many
      by_cases hreads : ∃ i f, FirstReading text.toList i f
      · obtain ⟨i, f, hfirst⟩ := hreads
        refine .noNumber hfirst fun hword => ?_
        rw [verdict?_eq_some_iff.2 ⟨i, f, hfirst, hword, rfl⟩] at hv
        cases hv
      · rw [exists_firstReading_iff] at hreads
        exact .nothing fun i f rest hreading => hreads ⟨i, f, rest, hreading⟩

theorem classify_eq_iff {text : String} {r : Except TriageError (Option Verdict)} :
    classifier.classify text = r ↔ ∃ v, r = .ok v ∧ Says text.toList v := by
  rw [classifier_classify]
  constructor
  · rintro rfl
    exact ⟨_, rfl, says_iff.2 rfl⟩
  · rintro ⟨v, rfl, hsays⟩
    rw [says_iff.1 hsays]

theorem captures?_eq_some_iff {cs : List Char} {captured : List (List Char)} :
    pattern.captures? cs = some captured ↔ ∃ i f, FirstReading cs i f ∧ captured = f.captures := by
  rw [captures?_pattern, Option.map_eq_some_iff]
  simp only [leftmost?_findingHere?_eq_some_iff]
  constructor
  · rintro ⟨f, ⟨i, hfirst⟩, rfl⟩
    exact ⟨i, f, hfirst, rfl⟩
  · rintro ⟨i, f, hfirst, rfl⟩
    exact ⟨f, ⟨i, hfirst⟩, rfl⟩

/-- The checker dialect takes exactly its line format. Every text has an answer, which is never
    an error, and which is the one that the text says: that of its first reading, if it has any,
    with the longest message there, and none if the digits of this reading are no number of 64
    bits. The first reading is what the search pattern captures. -/
theorem classify_eq_iff_says (text : String) :
    (∀ r, classifier.classify text = r ↔ ∃ v, r = .ok v ∧ Says text.toList v) ∧
    (∀ captured, pattern.captures? text.toList = some captured ↔
      ∃ i f, FirstReading text.toList i f ∧ captured = f.captures) ∧
    ((∃ i f, FirstReading text.toList i f) ↔ ∃ i f rest, Reading (text.toList.drop i) f rest) :=
  ⟨fun _ => classify_eq_iff, fun _ => captures?_eq_some_iff, exists_firstReading_iff⟩

/-- A later verdict with a number does not make up for a first one without. -/
example : classifier.classify "[Checker] Pass! ٣ (a) [Checker] Fail! 7 (b)" = .ok none ∧
    classifier.classify "[Checker] Pass! [Checker] Fail! 007 ( (b) ) c)\n)" =
      .ok (some ⟨.fail, .number 7, "(b) ) c"⟩) := by
  decide +kernel

end CompilerFuzz.Triage.Checker
