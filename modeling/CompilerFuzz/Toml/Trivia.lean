/-
  CompilerFuzz.Toml.Trivia

  What stands between the parts of a TOML text: blanks, newlines and comments.
-/

namespace CompilerFuzz.Toml

/-- May `c` stand between two parts of one line? -/
def isSpace (c : Char) : Bool :=
  c == ' ' || c == '\t'

/-- May `c` stand in a comment or a string as it is? No control character but the tab may. -/
def isPlain (c : Char) : Bool :=
  c == '\t' || (' ' ≤ c && c != '\x7f')

/-- The text without the blanks at its front. -/
def skipSpace (cs : List Char) : List Char :=
  cs.dropWhile isSpace

/-- The text without the newline at its front. A carriage return may stand before it. -/
def newline? : List Char → Option (List Char)
  | '\n' :: rest => some rest
  | '\r' :: '\n' :: rest => some rest
  | _ => none

/-- The text without the comment at its front. -/
def skipComment : List Char → List Char
  | '#' :: rest => rest.dropWhile isPlain
  | cs => cs

/-- What follows the end of the current line, if nothing but a comment is left on it. -/
def lineEnd? (cs : List Char) : Option (List Char) :=
  match skipComment (skipSpace cs) with
  | [] => some []
  | rest => newline? rest

/-! ## Lengths -/

theorem length_skipSpace_le (cs : List Char) : (skipSpace cs).length ≤ cs.length :=
  (List.dropWhile_sublist isSpace).length_le

theorem length_newline?_lt {cs rest : List Char} (h : newline? cs = some rest) :
    rest.length < cs.length := by
  unfold newline? at h
  split at h
  · cases h; simp
  · cases h; simp only [List.length_cons]; omega
  · cases h

theorem length_skipComment_le (cs : List Char) : (skipComment cs).length ≤ cs.length := by
  unfold skipComment
  split
  · exact Nat.le_succ_of_le (List.dropWhile_sublist isPlain).length_le
  · exact Nat.le_refl _

theorem length_lineEnd?_le {cs rest : List Char} (h : lineEnd? cs = some rest) :
    rest.length ≤ cs.length := by
  have h₁ := length_skipComment_le (skipSpace cs)
  have h₂ := length_skipSpace_le cs
  unfold lineEnd? at h
  split at h
  · cases h; simp
  · have := length_newline?_lt h; omega

/-! ## Trivia over several lines -/

/-- The text without the blanks, newlines and comments at its front. A comment counts only
    with the newline that ends it. -/
def skipTrivia (cs : List Char) : List Char :=
  match _h : newline? (skipComment (skipSpace cs)) with
  | some rest => skipTrivia rest
  | none => skipSpace cs
termination_by cs.length
decreasing_by
  have h₁ := length_newline?_lt _h
  have h₂ := length_skipComment_le (skipSpace cs)
  have h₃ := length_skipSpace_le cs
  omega

theorem length_skipTrivia_le (cs : List Char) : (skipTrivia cs).length ≤ cs.length := by
  fun_induction skipTrivia cs with
  | case1 cs rest h ih =>
    have h₁ := length_newline?_lt h
    have h₂ := length_skipComment_le (skipSpace cs)
    have h₃ := length_skipSpace_le cs
    omega
  | case2 cs h => exact length_skipSpace_le cs

end CompilerFuzz.Toml
