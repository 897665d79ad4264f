/-
  CompilerFuzz.Text.Lines

  Lines of a text. A line ends at a newline, and one carriage return before that
  newline is dropped with it; what follows the last newline is a line of its own if
  it is not empty, and keeps its carriage return.
-/

namespace CompilerFuzz.Text

/-- One piece of a text: its characters, and whether a newline ended it. -/
structure Piece where
  chars : List Char
  ended : Bool
  deriving DecidableEq, Repr

/-- Puts one more character in front of a text already cut into pieces. -/
def Piece.push (c : Char) (ps : List Piece) : List Piece :=
  if c = '\n' then ⟨[], true⟩ :: ps
  else match ps with
    | [] => [⟨[c], false⟩]
    | p :: ps => ⟨c :: p.chars, p.ended⟩ :: ps

/-- The pieces of a text, cut after every newline. -/
def pieces (cs : List Char) : List Piece :=
  cs.foldr Piece.push []

/-- `cs` without one carriage return at its end. -/
def dropReturn (cs : List Char) : List Char :=
  if cs.getLast? = some '\r' then cs.dropLast else cs

/-- The line that a piece holds. -/
def Piece.line (p : Piece) : List Char :=
  if p.ended then dropReturn p.chars else p.chars

/-- The lines of a text, from first to last. -/
def rawLines (s : String) : List String :=
  (pieces s.toList).map fun p => String.ofList p.line

/-! ## Small laws -/

@[simp] theorem pieces_nil : pieces [] = [] := rfl

theorem pieces_cons (c : Char) (cs : List Char) :
    pieces (c :: cs) = Piece.push c (pieces cs) := rfl

theorem pieces_newline (cs : List Char) : pieces ('\n' :: cs) = ⟨[], true⟩ :: pieces cs := rfl

/-- A text without a newline is one unended piece. -/
theorem pieces_of_not_mem {cs : List Char} (h : '\n' ∉ cs) (hne : cs ≠ []) :
    pieces cs = [⟨cs, false⟩] := by
  induction cs with
  | nil => exact absurd rfl hne
  | cons c cs ih =>
    have hc : c ≠ '\n' := fun e => h (by simp [e])
    cases cs with
    | nil => simp [pieces_cons, Piece.push, hc]
    | cons d ds =>
      rw [pieces_cons, ih (fun m => h (by simp [m])) (by simp)]
      simp [Piece.push, hc]

/-- A text up to a newline is one ended piece, and the rest follows. -/
theorem pieces_append_newline {cs : List Char} (h : '\n' ∉ cs) (rest : List Char) :
    pieces (cs ++ '\n' :: rest) = ⟨cs, true⟩ :: pieces rest := by
  induction cs with
  | nil => exact pieces_newline rest
  | cons c cs ih =>
    have hc : c ≠ '\n' := fun e => h (by simp [e])
    rw [List.cons_append, pieces_cons, ih (fun m => h (by simp [m]))]
    simp [Piece.push, hc]

/-- No newline is left in a piece. -/
theorem newline_notMem_of_mem_pieces {cs : List Char} {p : Piece} (h : p ∈ pieces cs) :
    '\n' ∉ p.chars := by
  induction cs generalizing p with
  | nil => cases h
  | cons c cs ih =>
    rw [pieces_cons] at h
    unfold Piece.push at h
    -- a newline opens an empty piece, any other character goes to the first one
    split at h
    · rcases List.mem_cons.1 h with rfl | h
      · exact List.not_mem_nil
      · exact ih h
    · next hc =>
      split at h
      · rw [List.mem_singleton.1 h]
        exact fun hm => hc (List.mem_singleton.1 hm).symm
      · next q qs hq =>
        rw [hq] at ih
        rcases List.mem_cons.1 h with rfl | h
        · intro hm
          rcases List.mem_cons.1 hm with e | hm
          · exact hc e.symm
          · exact ih List.mem_cons_self hm
        · exact ih (List.mem_cons_of_mem _ h)

theorem dropReturn_subset (cs : List Char) : dropReturn cs ⊆ cs := by
  unfold dropReturn
  split
  · exact List.dropLast_subset cs
  · exact List.Subset.refl cs

/-- No line has a newline in it. -/
theorem newline_notMem_of_mem_rawLines {text line : String} (h : line ∈ rawLines text) :
    '\n' ∉ line.toList := by
  obtain ⟨p, hp, rfl⟩ := List.mem_map.1 h
  rw [String.toList_ofList]
  unfold Piece.line
  split
  · exact fun hm => newline_notMem_of_mem_pieces hp (dropReturn_subset _ hm)
  · exact newline_notMem_of_mem_pieces hp

/-- Texts without a newline, each ended by one, are the pieces of their concatenation. -/
theorem pieces_flatMap {lines : List (List Char)} (h : ∀ cs ∈ lines, '\n' ∉ cs) :
    pieces (lines.flatMap fun cs => cs ++ ['\n']) = lines.map fun cs => ⟨cs, true⟩ := by
  induction lines with
  | nil => rfl
  | cons cs lines ih =>
    rw [List.forall_mem_cons] at h
    rw [List.flatMap_cons, List.append_assoc, List.singleton_append, pieces_append_newline h.1,
      ih h.2, List.map_cons]

theorem pieces_ne_nil {cs : List Char} (h : cs ≠ []) : pieces cs ≠ [] := by
  cases cs with
  | nil => exact absurd rfl h
  | cons c cs =>
    rw [pieces_cons]
    unfold Piece.push
    split
    · exact List.cons_ne_nil _ _
    · split <;> exact List.cons_ne_nil _ _

theorem Piece.push_append (c : Char) {ps : List Piece} (h : ps ≠ []) (qs : List Piece) :
    Piece.push c (ps ++ qs) = Piece.push c ps ++ qs := by
  cases ps with
  | nil => exact absurd rfl h
  | cons p ps =>
    unfold Piece.push
    split <;> rfl

/-- Behind a newline a new piece starts. -/
theorem pieces_append {cs : List Char} (h : cs = [] ∨ cs.getLast? = some '\n') (ds : List Char) :
    pieces (cs ++ ds) = pieces cs ++ pieces ds := by
  induction cs with
  | nil => rfl
  | cons c cs ih =>
    have hlast : (c :: cs).getLast? = some '\n' := h.resolve_left (List.cons_ne_nil _ _)
    cases cs with
    | nil =>
      obtain rfl : c = '\n' := Option.some.inj hlast
      exact pieces_newline ds
    | cons d cs =>
      rw [List.getLast?_cons_cons] at hlast
      rw [List.cons_append, pieces_cons, ih (.inr hlast), pieces_cons c (d :: cs)]
      exact Piece.push_append c (pieces_ne_nil (List.cons_ne_nil d cs)) _

/-- Is the text a sequence of whole lines, with nothing behind the last newline? -/
def EndsLine (s : String) : Prop :=
  s = "" ∨ s.toList.getLast? = some '\n'

/-- The lines of a text behind whole lines come after these. -/
theorem rawLines_append {a : String} (h : EndsLine a) (b : String) :
    rawLines (a ++ b) = rawLines a ++ rawLines b := by
  have hchars : a.toList = [] ∨ a.toList.getLast? = some '\n' :=
    h.imp_left fun e => by rw [e]; rfl
  unfold rawLines
  rw [String.toList_append, pieces_append hchars, List.map_append]

theorem rawLines_join_replicate {a : String} (h : EndsLine a) (n : Nat) :
    rawLines (String.join (List.replicate n a)) = (List.replicate n (rawLines a)).flatten := by
  induction n with
  | zero => rfl
  | succ n ih =>
    rw [List.replicate_succ, String.join_cons, rawLines_append h, ih, List.replicate_succ,
      List.flatten_cons]

theorem rawLines_join {lines : List String} (h : ∀ line ∈ lines, '\n' ∉ line.toList) :
    rawLines (String.join (lines.map (· ++ "\n"))) =
      lines.map fun line => String.ofList (dropReturn line.toList) := by
  have hchars : (String.join (lines.map (· ++ "\n"))).toList =
      (lines.map String.toList).flatMap fun cs => cs ++ ['\n'] := by
    simp [String.toList_join, List.flatMap_map]
  have hnone : ∀ cs ∈ lines.map String.toList, '\n' ∉ cs := by
    simpa using h
  unfold rawLines
  rw [hchars, pieces_flatMap hnone]
  simp [Piece.line, Function.comp_def]

/-- Behind newlines, lines that do not end in a carriage return are read back. -/
theorem rawLines_join_newline {lines : List String} (h : ∀ line ∈ lines, '\n' ∉ line.toList)
    (hreturn : ∀ line ∈ lines, line.toList.getLast? ≠ some '\r') :
    rawLines (String.join (lines.map (· ++ "\n"))) = lines := by
  rw [rawLines_join h]
  conv => rhs; rw [← List.map_id lines]
  refine List.map_congr_left fun line hline => ?_
  unfold dropReturn
  rw [if_neg (hreturn line hline), String.ofList_toList]
  rfl

/-- Behind a carriage return and a newline, all lines are read back. -/
theorem rawLines_join_return {lines : List String} (h : ∀ line ∈ lines, '\n' ∉ line.toList) :
    rawLines (String.join (lines.map (· ++ "\r\n"))) = lines := by
  have hnone : ∀ line ∈ lines.map (· ++ "\r"), '\n' ∉ line.toList := by
    simpa using h
  have hreads := rawLines_join hnone
  rw [List.map_map, List.map_map] at hreads
  have hsame : (fun line : String => line ++ "\r\n") = (· ++ "\n") ∘ (· ++ "\r") := by
    funext line
    show line ++ "\r\n" = line ++ "\r" ++ "\n"
    rw [String.append_assoc]
    rfl
  rw [hsame, hreads]
  conv => rhs; rw [← List.map_id lines]
  refine List.map_congr_left fun line hline => ?_
  simp [dropReturn]

end CompilerFuzz.Text
