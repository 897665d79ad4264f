/-
  CompilerFuzz.Toml.Quotation

  Quoted strings in their four forms. The basic forms stand in double quotes and know
  escapes, the literal forms stand in single quotes and know none; the multi-line forms
  take three quotes, may hold newlines, and lose a newline right after the opening.
-/
import CompilerFuzz.Text.Front
import CompilerFuzz.Toml.Trivia

namespace CompilerFuzz.Toml

open CompilerFuzz.Text

/-- The four forms. -/
inductive Quotation
  | basic
  | literal
  | multiBasic
  | multiLiteral
  deriving DecidableEq, Repr

/-! ## Escapes -/

/-- The value of a hexadecimal digit. -/
def hexDigit? (c : Char) : Option Nat :=
  if '0' ≤ c ∧ c ≤ '9' then some (c.toNat - 48)
  else if 'a' ≤ c ∧ c ≤ 'f' then some (c.toNat - 87)
  else if 'A' ≤ c ∧ c ≤ 'F' then some (c.toNat - 55)
  else none

/-- The number that hexadecimal digits denote. -/
def hexNumber? (cs : List Char) : Option Nat :=
  cs.foldlM (fun n c => (hexDigit? c).map fun d => n * 16 + d) 0

/-- The character with the given code, which must be a scalar value. -/
def charOfCode? (n : Nat) : Option Char :=
  if n.isValidChar then some (Char.ofNat n) else none

/-- The character whose code the first `count` digits give. -/
def codePoint? (count : Nat) (cs : List Char) : Option Char :=
  if (cs.take count).length = count then (hexNumber? (cs.take count)).bind charOfCode? else none

/-- What a letter after a backslash stands for. -/
def shortEscape? : Char → Option Char
  | 'b' => some '\x08'
  | 't' => some '\t'
  | 'n' => some '\n'
  | 'f' => some '\x0c'
  | 'r' => some '\r'
  | '"' => some '"'
  | '\\' => some '\\'
  | _ => none

/-- The character that an escape stands for; the backslash is already read. -/
def escape? : (cs : List Char) → Option (Front Char cs)
  | [] => none
  | 'u' :: rest => (codePoint? 4 rest).map fun c =>
    ⟨c, rest.drop 4, by simp only [List.length_drop, List.length_cons]; omega⟩
  | 'U' :: rest => (codePoint? 8 rest).map fun c =>
    ⟨c, rest.drop 8, by simp only [List.length_drop, List.length_cons]; omega⟩
  | e :: rest => (shortEscape? e).map fun c => ⟨c, rest, by simp⟩

/-! ## One line -/

/-- The rest of a basic string, up to the closing quote. -/
def basicBody? (cs : List Char) : Option (Front (List Char) cs) :=
  match cs with
  | [] => none
  | '"' :: rest => some ⟨[], rest, by simp⟩
  | '\\' :: rest =>
    match escape? rest with
    | none => none
    | some e =>
      (basicBody? e.rest).map fun r =>
        ((r.map (e.value :: ·)).within (Nat.le_of_lt e.shorter)).cons
  | c :: rest =>
    if isPlain c then (basicBody? rest).map fun r => (r.map (c :: ·)).cons else none
termination_by cs.length
decreasing_by
  · exact Nat.lt_succ_of_lt e.shorter
  · simp

/-- The rest of a literal string, up to the closing quote. -/
def literalBody? : (cs : List Char) → Option (Front (List Char) cs)
  | [] => none
  | '\'' :: rest => some ⟨[], rest, by simp⟩
  | c :: rest =>
    if isPlain c then (literalBody? rest).map fun r => (r.map (c :: ·)).cons else none

/-! ## Several lines -/

/-- The text without the newline at its front, if there is one. -/
def dropNewline (cs : List Char) : List Char :=
  (newline? cs).getD cs

/-- The text without the blanks and newlines at its front. -/
def skipLines : List Char → List Char
  | ' ' :: rest => skipLines rest
  | '\t' :: rest => skipLines rest
  | '\n' :: rest => skipLines rest
  | '\r' :: '\n' :: rest => skipLines rest
  | cs => cs

/-- What follows a backslash at the end of a line: the next text after blanks and newlines. -/
def continuation? (cs : List Char) : Option (List Char) :=
  (newline? (skipSpace cs)).map skipLines

/-- What follows three closing quotes: up to two more quotes belong to the string. -/
def closing (quote : Char) (cs : List Char) : List Char × List Char :=
  match cs with
  | a :: b :: rest =>
    -- of five quotes in a row two belong to the string
    if a = quote then if b = quote then ([a, b], rest) else ([a], b :: rest)
    else ([], a :: b :: rest)
  | [a] => if a = quote then ([a], []) else ([], [a])
  | [] => ([], [])

theorem length_dropNewline_le (cs : List Char) : (dropNewline cs).length ≤ cs.length := by
  unfold dropNewline
  cases h : newline? cs with
  | none => exact Nat.le_refl _
  | some rest => exact Nat.le_of_lt (length_newline?_lt h)

theorem length_skipLines_le (cs : List Char) : (skipLines cs).length ≤ cs.length := by
  fun_induction skipLines cs with
  | case1 rest ih => exact Nat.le_succ_of_le ih
  | case2 rest ih => exact Nat.le_succ_of_le ih
  | case3 rest ih => exact Nat.le_succ_of_le ih
  | case4 rest ih => exact Nat.le_succ_of_le (Nat.le_succ_of_le ih)
  | case5 cs => exact Nat.le_refl _

theorem length_continuation?_lt {cs rest : List Char} (h : continuation? cs = some rest) :
    rest.length < cs.length := by
  unfold continuation? at h
  obtain ⟨mid, hmid, rfl⟩ := Option.map_eq_some_iff.1 h
  have h₁ := length_newline?_lt hmid
  have h₂ := length_skipLines_le mid
  have h₃ := length_skipSpace_le cs
  omega

theorem length_closing_le (quote : Char) (cs : List Char) :
    (closing quote cs).2.length ≤ cs.length := by
  unfold closing
  split
  · split
    · split <;> simp only [List.length_cons] <;> omega
    · exact Nat.le_refl _
  · split <;> simp
  · exact Nat.le_refl _

/-- What three closing quotes and the rest yield. -/
def closed (quote : Char) (cs : List Char) : Front (List Char) (quote :: quote :: quote :: cs) :=
  ⟨(closing quote cs).1, (closing quote cs).2, by
    have := length_closing_le quote cs
    simp only [List.length_cons]
    omega⟩

/-- The rest of a multi-line basic string, up to the closing quotes. -/
def multiBasicBody? (cs : List Char) : Option (Front (List Char) cs) :=
  match cs with
  | [] => none
  -- the string may end in quotes of its own, which stand before the closing ones
  | '"' :: '"' :: '"' :: rest => some (closed '"' rest)
  | '\\' :: rest =>
    match _h : continuation? rest with
    -- a line that ends in a backslash goes on with the next text
    | some next =>
      (multiBasicBody? next).map fun r =>
        (r.within (Nat.le_of_lt (length_continuation?_lt _h))).cons
    | none =>
      match escape? rest with
      | none => none
      | some e =>
        (multiBasicBody? e.rest).map fun r =>
          ((r.map (e.value :: ·)).within (Nat.le_of_lt e.shorter)).cons
  | c :: rest =>
    match _h : newline? (c :: rest) with
    | some next =>
      (multiBasicBody? next).map fun r =>
        (r.map ('\n' :: ·)).within (Nat.le_of_lt (length_newline?_lt _h))
    | none =>
      if isPlain c then (multiBasicBody? rest).map fun r => (r.map (c :: ·)).cons else none
termination_by cs.length
decreasing_by
  · exact Nat.lt_succ_of_lt (length_continuation?_lt _h)
  · exact Nat.lt_succ_of_lt e.shorter
  · exact length_newline?_lt _h
  · simp

/-- The rest of a multi-line literal string, up to the closing quotes. -/
def multiLiteralBody? (cs : List Char) : Option (Front (List Char) cs) :=
  match cs with
  | [] => none
  | '\'' :: '\'' :: '\'' :: rest => some (closed '\'' rest)
  | c :: rest =>
    match _h : newline? (c :: rest) with
    | some next =>
      (multiLiteralBody? next).map fun r =>
        (r.map ('\n' :: ·)).within (Nat.le_of_lt (length_newline?_lt _h))
    | none =>
      if isPlain c then (multiLiteralBody? rest).map fun r => (r.map (c :: ·)).cons else none
termination_by cs.length
decreasing_by
  · exact length_newline?_lt _h
  · simp

/-! ## Any form -/

/-- A quoted string of one line. -/
def lineQuoted? : (cs : List Char) → Option (Front (List Char) cs)
  | '"' :: rest => (basicBody? rest).map Front.cons
  | '\'' :: rest => (literalBody? rest).map Front.cons
  | _ => none

/-- A quoted string in any form. -/
def quoted? (cs : List Char) : Option (Front (List Char) cs) :=
  match cs with
  | '"' :: '"' :: '"' :: rest =>
    (multiBasicBody? (dropNewline rest)).map fun r =>
      (r.within (length_dropNewline_le rest)).cons.cons.cons
  | '\'' :: '\'' :: '\'' :: rest =>
    (multiLiteralBody? (dropNewline rest)).map fun r =>
      (r.within (length_dropNewline_le rest)).cons.cons.cons
  -- two quotes alone are an empty string of one line
  | cs => lineQuoted? cs

end CompilerFuzz.Toml
