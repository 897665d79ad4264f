/-
  CompilerFuzz.Proofs.Triage.Loading

  What the lines of a log are, and which of them are kept where. `Cut` says how a text falls
  into lines, without the pieces that the reader makes of it; every text falls into one list of
  lines only (`cut_iff_rawLines`). Of equal lines the last one is kept and the kept lines stand
  in the order of their last occurrences (`standsBefore_keepLast_iff`), by induction on the log:
  its first line is dropped if it comes again, and stands before all others if it does not.
  A log that is written back with carriage returns is read as it was, and so is one that
  had none and is given one at every newline.
-/
import CompilerFuzz.Triage.Log

namespace CompilerFuzz.Text

/-- How a text falls into lines: it is cut at every newline, one carriage return before a newline
    goes with it, and what is left without a newline is a line as it stands, if it is not empty. -/
inductive Cut : List Char → List String → Prop
  | nil : Cut [] []
  | rest {cs} (hne : cs ≠ []) (h : '\n' ∉ cs) : Cut cs [String.ofList cs]
  | newline {cs rest lines} (h : '\n' ∉ cs) (hlast : cs.getLast? ≠ some '\r')
      (hrest : Cut rest lines) : Cut (cs ++ '\n' :: rest) (String.ofList cs :: lines)
  | returnNewline {cs rest lines} (h : '\n' ∉ cs) (hrest : Cut rest lines) :
      Cut (cs ++ '\r' :: '\n' :: rest) (String.ofList cs :: lines)

/-- The lines that the pieces of a text hold. -/
def linesOf (cs : List Char) : List String :=
  (pieces cs).map fun p => String.ofList p.line

/-! ## A text falls into lines in one way -/

theorem linesOf_append_newline {cs : List Char} (h : '\n' ∉ cs) (rest : List Char) :
    linesOf (cs ++ '\n' :: rest) = String.ofList (dropReturn cs) :: linesOf rest := by
  unfold linesOf
  rw [pieces_append_newline h]
  rfl

theorem Cut.lines_eq {cs : List Char} {lines : List String} (h : Cut cs lines) :
    lines = linesOf cs := by
  induction h with
  | nil => rfl
  | rest hne h =>
    unfold linesOf
    rw [pieces_of_not_mem h hne]
    rfl
  | @newline cs rest lines h hlast _ ih =>
    have hkept : dropReturn cs = cs := if_neg hlast
    rw [linesOf_append_newline h, hkept, ih]
  | @returnNewline cs rest lines h _ ih =>
    -- the carriage return counts to the line until the reader drops it
    have hnone : '\n' ∉ cs ++ ['\r'] := by simpa using h
    have hdropped : dropReturn (cs ++ ['\r']) = cs := by simp [dropReturn]
    have hsplit : cs ++ '\r' :: '\n' :: rest = (cs ++ ['\r']) ++ '\n' :: rest := by simp
    rw [hsplit, linesOf_append_newline hnone, hdropped, ih]

/-- Every text falls into lines. The induction is on its length: a text with a newline is a first
    line and a shorter text. -/
theorem cut_linesOf (cs : List Char) : Cut cs (linesOf cs) := by
  by_cases hmem : '\n' ∈ cs
  · obtain ⟨line, rest, rfl, hline⟩ := List.eq_append_cons_of_mem hmem
    have hshorter : rest.length < (line ++ '\n' :: rest).length := by
      simp only [List.length_append, List.length_cons]
      omega
    have hrest : Cut rest (linesOf rest) := cut_linesOf rest
    rw [linesOf_append_newline hline]
    by_cases hlast : line.getLast? = some '\r'
    · -- one carriage return goes with the newline, others before it stay
      obtain ⟨front, rfl⟩ := List.getLast?_eq_some_iff.1 hlast
      have hdropped : dropReturn (front ++ ['\r']) = front := by simp [dropReturn]
      have hfront : '\n' ∉ front := fun hm => hline (List.mem_append_left _ hm)
      rw [hdropped, List.append_assoc]
      exact .returnNewline hfront hrest
    · have hkept : dropReturn line = line := if_neg hlast
      rw [hkept]
      exact .newline hline hlast hrest
  · by_cases hne : cs = []
    · rw [hne]
      exact .nil
    · have hone : linesOf cs = [String.ofList cs] := by
        unfold linesOf
        rw [pieces_of_not_mem hmem hne]
        rfl
      rw [hone]
      exact .rest hne hmem
termination_by cs.length

theorem cut_iff_rawLines {text : String} {lines : List String} :
    Cut text.toList lines ↔ lines = rawLines text := by
  constructor
  · exact Cut.lines_eq
  · rintro rfl
    exact cut_linesOf text.toList

/-! ## Carriage returns -/

/-- The text with a carriage return before every newline. -/
def withReturns (text : String) : String :=
  String.ofList (text.toList.flatMap fun c => if c = '\n' then ['\r', '\n'] else [c])

theorem flatMap_of_notMem {cs : List Char} (h : '\n' ∉ cs) :
    (cs.flatMap fun c => if c = '\n' then ['\r', '\n'] else [c]) = cs := by
  induction cs with
  | nil => rfl
  | cons c cs ih =>
    rw [List.mem_cons, not_or] at h
    rw [List.flatMap_cons, if_neg fun e => h.1 e.symm, ih h.2, List.singleton_append]

/-- A text without a carriage return before a newline falls into the same lines when every newline
    gets one. -/
theorem Cut.withReturns {cs : List Char} {lines : List String} (h : Cut cs lines)
    (hnone : ¬ ['\r', '\n'] <:+: cs) :
    Cut (cs.flatMap fun c => if c = '\n' then ['\r', '\n'] else [c]) lines := by
  induction h with
  | nil => exact .nil
  | rest hne h =>
    rw [flatMap_of_notMem h]
    exact .rest hne h
  | @newline cs rest lines h hlast _ ih =>
    have hrest : ¬ ['\r', '\n'] <:+: rest := by
      intro hpair
      have hsuffix : rest <:+ cs ++ '\n' :: rest := ⟨cs ++ ['\n'], by simp⟩
      exact hnone (hpair.trans hsuffix.isInfix)
    rw [List.flatMap_append, List.flatMap_cons, flatMap_of_notMem h, if_pos rfl]
    exact .returnNewline h (ih hrest)
  | @returnNewline cs rest lines h _ _ => exact absurd ⟨cs, rest, by simp⟩ hnone

theorem rawLines_withReturns {text : String} (hnone : ¬ ['\r', '\n'] <:+: text.toList) :
    rawLines (withReturns text) = rawLines text := by
  have hcut : Cut text.toList (rawLines text) := cut_iff_rawLines.2 rfl
  refine (cut_iff_rawLines.1 ?_).symm
  unfold Text.withReturns
  rw [String.toList_ofList]
  exact hcut.withReturns hnone

end CompilerFuzz.Text

namespace CompilerFuzz.Triage

open CompilerFuzz.Text

/-! ## The order of the kept lines -/

/-- One line stands somewhere before another one. -/
def StandsBefore (lines : List String) (x y : String) : Prop :=
  ∃ i j : Nat, i < j ∧ lines[i]? = some x ∧ lines[j]? = some y

/-- The line stands at a place, and at no later one. -/
def LastAt (lines : List String) (x : String) (i : Nat) : Prop :=
  lines[i]? = some x ∧ ∀ j, i < j → lines[j]? ≠ some x

/-- The last occurrence of one line comes before that of another one. -/
def LastBefore (lines : List String) (x y : String) : Prop :=
  ∃ i j : Nat, i < j ∧ LastAt lines x i ∧ LastAt lines y j

variable {lines : List String} {x y z : String}

theorem standsBefore_cons :
    StandsBefore (z :: lines) x y ↔ (z = x ∧ y ∈ lines) ∨ StandsBefore lines x y := by
  constructor
  · rintro ⟨i, j, hij, hx, hy⟩
    -- the later place is behind the first line; the earlier one may be that line
    obtain ⟨j, rfl⟩ : ∃ k, j = k + 1 := ⟨j - 1, by omega⟩
    rw [List.getElem?_cons_succ] at hy
    cases i with
    | zero => exact .inl ⟨Option.some.inj hx, List.mem_of_getElem? hy⟩
    | succ i => exact .inr ⟨i, j, by omega, hx, hy⟩
  · rintro (⟨rfl, hmem⟩ | ⟨i, j, hij, hx, hy⟩)
    · obtain ⟨j, hj⟩ := List.mem_iff_getElem?.1 hmem
      exact ⟨0, j + 1, by omega, rfl, hj⟩
    · exact ⟨i + 1, j + 1, by omega, hx, hy⟩

theorem lastAt_cons_zero : LastAt (z :: lines) x 0 ↔ z = x ∧ x ∉ lines := by
  constructor
  · rintro ⟨hx, hlast⟩
    refine ⟨Option.some.inj hx, fun hmem => ?_⟩
    obtain ⟨j, hj⟩ := List.mem_iff_getElem?.1 hmem
    exact hlast (j + 1) (by omega) hj
  · rintro ⟨rfl, hnot⟩
    refine ⟨rfl, fun j hj hz => ?_⟩
    obtain ⟨j, rfl⟩ : ∃ k, j = k + 1 := ⟨j - 1, by omega⟩
    exact hnot (List.mem_of_getElem? hz)

theorem lastAt_cons_succ {i : Nat} : LastAt (z :: lines) x (i + 1) ↔ LastAt lines x i := by
  constructor
  · rintro ⟨hx, hlast⟩
    exact ⟨hx, fun j hj => hlast (j + 1) (by omega)⟩
  · rintro ⟨hx, hlast⟩
    refine ⟨hx, fun j hj => ?_⟩
    obtain ⟨j, rfl⟩ : ∃ k, j = k + 1 := ⟨j - 1, by omega⟩
    exact hlast j (by omega)

/-- A line of the log has a last place. -/
theorem exists_lastAt_iff : (∃ i, LastAt lines x i) ↔ x ∈ lines := by
  constructor
  · rintro ⟨i, hx, -⟩
    exact List.mem_of_getElem? hx
  · intro hmem
    induction lines with
    | nil => cases hmem
    | cons z lines ih =>
      by_cases hx : x ∈ lines
      · obtain ⟨i, hi⟩ := ih hx
        exact ⟨i + 1, lastAt_cons_succ.2 hi⟩
      · have hz : z = x := ((List.mem_cons.1 hmem).resolve_right hx).symm
        exact ⟨0, lastAt_cons_zero.2 ⟨hz, hx⟩⟩

theorem lastBefore_cons :
    LastBefore (z :: lines) x y ↔
      (z = x ∧ x ∉ lines ∧ y ∈ lines) ∨ LastBefore lines x y := by
  constructor
  · rintro ⟨i, j, hij, hx, hy⟩
    obtain ⟨j, rfl⟩ : ∃ k, j = k + 1 := ⟨j - 1, by omega⟩
    rw [lastAt_cons_succ] at hy
    cases i with
    | zero =>
      obtain ⟨hz, hnot⟩ := lastAt_cons_zero.1 hx
      exact .inl ⟨hz, hnot, exists_lastAt_iff.1 ⟨j, hy⟩⟩
    | succ i => exact .inr ⟨i, j, by omega, lastAt_cons_succ.1 hx, hy⟩
  · rintro (⟨hz, hnot, hmem⟩ | ⟨i, j, hij, hx, hy⟩)
    · obtain ⟨j, hj⟩ := exists_lastAt_iff.2 hmem
      exact ⟨0, j + 1, by omega, lastAt_cons_zero.2 ⟨hz, hnot⟩, lastAt_cons_succ.2 hj⟩
    · exact ⟨i + 1, j + 1, by omega, lastAt_cons_succ.2 hx, lastAt_cons_succ.2 hy⟩

/-- Kept lines stand in the order of their last occurrences. -/
theorem standsBefore_keepLast_iff :
    StandsBefore (keepLast lines) x y ↔ LastBefore lines x y := by
  induction lines with
  | nil => simp [keepLast, keepFirst, StandsBefore, LastBefore, LastAt]
  | cons z lines ih =>
    rw [keepLast_cons, lastBefore_cons]
    by_cases hz : z ∈ lines
    · -- the first line comes again, so this is not its last occurrence
      rw [if_pos hz, ih, or_iff_right]
      rintro ⟨rfl, hnot, -⟩
      exact hnot hz
    · rw [if_neg hz, standsBefore_cons, ih, mem_keepLast]
      refine or_congr_left (and_congr_right ?_)
      rintro rfl
      exact (and_iff_right hz).symm

theorem keepLast_of_nodup (h : lines.Nodup) : keepLast lines = lines := by
  induction lines with
  | nil => rfl
  | cons z lines ih =>
    obtain ⟨hz, hrest⟩ := List.nodup_cons.1 h
    rw [keepLast_cons, if_neg hz, ih hrest]

namespace LogLines

/-- A log written out, every line behind a carriage return and a newline. -/
def write (log : LogLines) : String :=
  String.join (log.lines.map (· ++ "\r\n"))

theorem ofText_write (text : String) : ofText (ofText text).write = ofText text := by
  have hnone : ∀ line ∈ (ofText text).lines, '\n' ∉ line.toList :=
    fun line hline => newline_notMem_of_mem_rawLines (mem_keepLast.1 hline)
  have hlines : rawLines (ofText text).write = (ofText text).lines := rawLines_join_return hnone
  refine LogLines.ext ?_
  rw [lines_ofText, hlines]
  exact keepLast_of_nodup (ofText text).nodup

/-- A text falls into lines in one way, and its log holds each of these lines once, in the order
    of their last occurrences. Written back behind carriage returns and newlines, the log is read
    as it was; and carriage returns before all newlines of a text that has none there change
    nothing. -/
theorem ofText_loads (text : String) :
    ∃ lines, (∀ ls, Cut text.toList ls ↔ ls = lines) ∧
      (ofText text).lines.Nodup ∧
      (∀ x, x ∈ (ofText text).lines ↔ x ∈ lines) ∧
      (∀ x y, StandsBefore (ofText text).lines x y ↔ LastBefore lines x y) ∧
      ofText (ofText text).write = ofText text ∧
      (¬ ['\r', '\n'] <:+: text.toList → ofText (withReturns text) = ofText text) := by
  refine ⟨rawLines text, fun _ => cut_iff_rawLines, (ofText text).nodup, fun _ => mem_keepLast,
    fun _ _ => standsBefore_keepLast_iff, ofText_write text, fun hnone => ?_⟩
  refine LogLines.ext ?_
  rw [lines_ofText, lines_ofText, rawLines_withReturns hnone]

/-- A repeated line stands at its last place, with and without carriage returns. -/
theorem loads_of_repeated_line :
    let text := "b\na\r\r b\nb\nc"
    ¬ ['\r', '\n'] <:+: text.toList ∧ ofText (withReturns text) = ofText text ∧
      (ofText text).lines = ["a\r\r b", "b", "c"] := by
  intro text
  have hnone : ¬ ['\r', '\n'] <:+: text.toList := by decide +kernel
  obtain ⟨_, -, -, -, -, -, hreturns⟩ := ofText_loads text
  exact ⟨hnone, hreturns hnone, by decide +kernel⟩

/-- A line that ends in a carriage return is lost when it is written back behind a newline alone:
    the newline takes the carriage return with it. -/
example :
    rawLines "a\r\r\n" = ["a\r"] ∧ rawLines (String.join (["a\r"].map (· ++ "\n"))) = ["a"] := by
  decide +kernel

end LogLines

end CompilerFuzz.Triage
