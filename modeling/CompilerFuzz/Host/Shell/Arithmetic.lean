/-
  CompilerFuzz.Host.Shell.Arithmetic

  Arithmetic of the shell on words of 64 bits. Comparisons and logical operators yield one
  and zero; a quotient is rounded toward zero; a name stands for the number in a variable.
  What an operator leaves out is read and not evaluated.
-/
import CompilerFuzz.Host.Number
import CompilerFuzz.Host.Shell.Syntax

namespace CompilerFuzz.Host.Arithmetic

open CompilerFuzz.Text

/-! ## Terms -/

/-- What expressions are made of. -/
inductive Term
  | number (n : Int)
  | name (cs : Octets)
  | operator (s : String)
  deriving DecidableEq, Repr

/-- Operators, the longer ones first. -/
def operators : List String :=
  ["<<=", ">>=", "==", "!=", "<=", ">=", "<<", ">>", "&&", "||", "|=", "&=", "^=", "*=", "/=",
    "%=", "+=", "-=", "=", "<", ">", "|", "&", "!", "(", ")", "*", "/", "%", "+", "-", "~", "^",
    "?", ":"]

/-- The operator at the front of a text. -/
def operator? (cs : Octets) : Option String :=
  operators.find? fun o => o.toList.isPrefixOf cs

/-- The terms of an expression. The fuel is at least the length of the text. -/
def terms : (fuel : Nat) → Octets → List Term
  | 0, _ => []
  | _ + 1, [] => []
  | fuel + 1, c :: cs =>
    if c = ' ' ∨ c = '\t' ∨ c = '\n' then terms fuel cs
    else if isNameStart c then
      .name (c :: cs.takeWhile isNameChar) :: terms fuel (cs.dropWhile isNameChar)
    else
      match Number.unsigned true (c :: cs) with
      | some (n, rest) => .number (Number.clamped n) :: terms fuel rest
      | none =>
        match operator? (c :: cs) with
        | some o => .operator o :: terms fuel ((c :: cs).drop o.length)
        | none => [.operator (String.singleton c)]

/-! ## Evaluation -/

/-- Why an expression has no value. -/
inductive Trouble
  /-- A fault of the expression itself. -/
  | expression (words : String)
  /-- A fault of a variable, by its complaint. -/
  | operand (complaint : Octets)
  deriving DecidableEq, Repr

/-- The complaint about an expression. -/
def Trouble.complaint (text : Octets) : Trouble → Octets
  | .expression words =>
    Octets.ofText ("arithmetic expression: " ++ words ++ ": \"") ++ text ++ ['"']
  | .operand complaint => complaint

/-- The state of an evaluation. -/
structure Progress where
  terms : List Term
  /-- What has been assigned, latest first. -/
  assigned : List (Octets × Int)

/-- A step of an evaluation. -/
abbrev Step (α : Type) := StateT Progress (Except Trouble) α

/-- The value of a variable for arithmetic, or a complaint. -/
abbrev Lookup := Octets → Except Octets Int

/-- Evaluation fails. -/
def fail {α : Type} (words : String) : Step α := throw (.expression words)

/-- The next term. -/
def peek : Step (Option Term) := return (← get).terms.head?

/-- Steps over a term. -/
def advance : Step Unit := modify fun p => { p with terms := p.terms.drop 1 }

/-- Steps over an operator if it is next. -/
def take? (o : String) : Step Bool := do
  if (← peek) = some (.operator o) then
    advance
    return true
  else return false

/-- A truth value as a number. -/
def truth (b : Bool) : Int := if b then 1 else 0

/-- The binary operators on numbers, with their levels; the tightest level is zero. -/
def levels : List (String × Nat) :=
  [("*", 0), ("/", 0), ("%", 0), ("+", 1), ("-", 1), ("<<", 2), (">>", 2), ("<", 3), ("<=", 3),
    (">", 3), (">=", 3), ("==", 4), ("!=", 4), ("&", 5), ("^", 6), ("|", 7)]

/-- The loosest level. -/
def loosest : Nat := 7

/-- A number as a word. -/
def word (n : Int) : BitVec 64 := BitVec.ofInt 64 n

/-- The result of a binary operator. -/
def apply (o : String) (a b : Int) : Step Int :=
  if o = "*" then return Number.wrapped (a * b)
  else if o = "+" then return Number.wrapped (a + b)
  else if o = "-" then return Number.wrapped (a - b)
  else if o = "<<" then return (word a <<< (b % 64).toNat).toInt
  else if o = ">>" then return ((word a).sshiftRight (b % 64).toNat).toInt
  else if o = "<" then return truth (a < b)
  else if o = "<=" then return truth (a ≤ b)
  else if o = ">" then return truth (b < a)
  else if o = ">=" then return truth (b ≤ a)
  else if o = "==" then return truth (a = b)
  else if o = "!=" then return truth (a ≠ b)
  else if o = "&" then return (word a &&& word b).toInt
  else if o = "^" then return (word a ^^^ word b).toInt
  else if o = "|" then return (word a ||| word b).toInt
  else if b = 0 then fail "division by zero"
  else if o = "/" then return Number.wrapped (a.tdiv b)
  else return a.tmod b

/-- The operator that an assignment applies first, if the term is one. -/
def assignment? : Term → Option (Option String)
  | .operator "=" => some none
  | .operator o =>
    if o.endsWith "=" ∧ o ∉ ["==", "!=", "<=", ">="] then some (some (o.dropEnd 1).toString) else none
  | _ => none

/-- The value of a variable, whether it was assigned in this expression or before. -/
def valueOf (lookup : Lookup) (name : Octets) : Step Int := do
  match (← get).assigned.lookup name with
  | some n => return n
  | none =>
    match lookup name with
    | .ok n => return n
    | .error complaint => throw (.operand complaint)

mutual

/-- An assignment or anything tighter. With `skip` nothing is evaluated. -/
def expression (lookup : Lookup) : (fuel : Nat) → (skip : Bool) → Step Int
  | 0, _ => fail "expecting primary"
  | fuel + 1, skip => do
    match (← get).terms with
    | .name v :: t :: _ =>
      match assignment? t with
      | none => conditional lookup fuel skip
      | some o =>
        advance
        advance
        let n ← expression lookup fuel skip
        if skip then return n
        else
          let n ← match o with
            | none => pure n
            | some o => do apply o (← valueOf lookup v) n
          modify fun p => { p with assigned := (v, n) :: p.assigned }
          return n
    | _ => conditional lookup fuel skip

/-- A choice or anything tighter. -/
def conditional (lookup : Lookup) : (fuel : Nat) → (skip : Bool) → Step Int
  | 0, _ => fail "expecting primary"
  | fuel + 1, skip => do
    let a ← disjunction lookup fuel skip
    if ← take? "?" then
      let b ← expression lookup fuel (skip || a = 0)
      if ¬ (← take? ":") then fail "expecting ':'"
      let c ← conditional lookup fuel (skip || a ≠ 0)
      return if a = 0 then c else b
    else return a

/-- Conjunctions of which one is true. -/
def disjunction (lookup : Lookup) : (fuel : Nat) → (skip : Bool) → Step Int
  | 0, _ => fail "expecting primary"
  | fuel + 1, skip => do
    let a ← conjunction lookup fuel skip
    if ← take? "||" then
      let b ← disjunction lookup fuel (skip || a ≠ 0)
      return truth (a ≠ 0 || b ≠ 0)
    else return a

/-- Numbers of which all are true. -/
def conjunction (lookup : Lookup) : (fuel : Nat) → (skip : Bool) → Step Int
  | 0, _ => fail "expecting primary"
  | fuel + 1, skip => do
    let a ← binary lookup fuel skip loosest
    if ← take? "&&" then
      let b ← conjunction lookup fuel (skip || a = 0)
      return truth (a ≠ 0 && b ≠ 0)
    else return a

/-- A number made by operators of a level or tighter. -/
def binary (lookup : Lookup) : (fuel : Nat) → (skip : Bool) → (level : Nat) → Step Int
  | 0, _, _ => fail "expecting primary"
  | fuel + 1, skip, level => do
    let a ← primary lookup fuel skip
    further lookup fuel skip level a

/-- What operators of a level or tighter make of a number before them. -/
def further (lookup : Lookup) : (fuel : Nat) → (skip : Bool) → (level : Nat) → Int → Step Int
  | 0, _, _, _ => fail "expecting primary"
  | fuel + 1, skip, level, a => do
    match ← peek with
    | some (.operator o) =>
      match levels.lookup o with
      | none => return a
      | some l =>
        if level < l then return a
        else
          advance
          let b ← primary lookup fuel skip
          let b ← if l = 0 then pure b else further lookup fuel skip (l - 1) b
          let c ← if skip then pure b else apply o a b
          further lookup fuel skip level c
    | _ => return a

/-- A number, a name, an expression in parentheses, or an operator before one of these. -/
def primary (lookup : Lookup) : (fuel : Nat) → (skip : Bool) → Step Int
  | 0, _ => fail "expecting primary"
  | fuel + 1, skip => do
    match ← peek with
    | some (.number n) =>
      advance
      return n
    | some (.name v) =>
      advance
      if skip then return 0 else valueOf lookup v
    | some (.operator "(") =>
      advance
      let n ← expression lookup fuel skip
      if ← take? ")" then return n else fail "expecting ')'"
    | some (.operator "+") =>
      advance
      primary lookup fuel skip
    | some (.operator "-") =>
      advance
      return Number.wrapped (-(← primary lookup fuel skip))
    | some (.operator "!") =>
      advance
      return truth ((← primary lookup fuel skip) = 0)
    | some (.operator "~") =>
      advance
      return -(← primary lookup fuel skip) - 1
    | _ => fail "expecting primary"

end

/-- How many functions may call one another for one term. -/
def depth : Nat := 8

/-- The value of an expression, and the variables that it assigns, the latest first; or the
    reason why it has none. -/
def evaluate (lookup : Lookup) (cs : Octets) : Except Trouble (Int × List (Octets × Int)) := do
  let ts := terms cs.length cs
  let (n, p) ← (expression lookup (depth * (ts.length + 2)) false).run ⟨ts, []⟩
  match p.terms with
  | [] => return (n, p.assigned)
  | _ => throw (.expression "expecting EOF")

end CompilerFuzz.Host.Arithmetic
