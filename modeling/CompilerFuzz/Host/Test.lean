/-
  CompilerFuzz.Host.Test

  Questions that a command answers by its exit status: about texts, numbers and files, joined
  by connectives. What an argument means depends on those around it.
-/
import CompilerFuzz.Host.Number
import CompilerFuzz.Host.System

namespace CompilerFuzz.Host.Test

open CompilerFuzz.Files CompilerFuzz.Text

/-! ## Operators -/

/-- The kinds of operators. -/
inductive Kind
  | unary
  | binary
  | negation
  | conjunction
  | disjunction
  | opening
  | closing
  deriving DecidableEq, Repr

/-- Operators on one argument. -/
def unaryOperators : List String :=
  ["-r", "-w", "-x", "-e", "-f", "-d", "-c", "-b", "-p", "-u", "-g", "-k", "-s", "-t", "-z", "-n",
    "-h", "-O", "-G", "-L", "-S"]

/-- Operators between two arguments. -/
def binaryOperators : List String :=
  ["=", "!=", "<", ">", "-eq", "-ne", "-ge", "-gt", "-le", "-lt", "-nt", "-ot", "-ef"]

/-- The kind of an operator. -/
def kind? (cs : Octets) : Option Kind :=
  let s := String.ofList cs
  if s ∈ unaryOperators then some .unary
  else if s ∈ binaryOperators then some .binary
  else if s = "!" then some .negation
  else if s = "-a" then some .conjunction
  else if s = "-o" then some .disjunction
  else if s = "(" then some .opening
  else if s = ")" then some .closing
  else none

/-- What is read next. -/
inductive Sign
  | finish
  | operand
  | operator (k : Kind)
  deriving DecidableEq, Repr

/-- Would an operator on one argument be an operand here? It is one at the end and before an
    operator between two arguments. -/
def isOperand : List Octets → Bool
  | [] => true
  | [_] => false
  | next :: _ :: _ => kind? next = some .binary

/-- What the first of some arguments is. -/
def sign : List Octets → Sign
  | [] => .finish
  | cs :: rest =>
    match kind? cs with
    | none => .operand
    | some .unary => if isOperand rest then .operand else .operator .unary
    | some .opening => if rest = [] then .operand else .operator .opening
    | some k => .operator k

/-! ## Answers -/

/-- What is known of files: about one of them by the letter of an operator, and about two. -/
structure Facts where
  one : Char → Octets → Bool
  two : Octets → Octets → Octets → Bool

/-- What is known of the files of a system from a directory. -/
def factsOf (s : System) (directory : Location) : Facts where
  one letter path :=
    match letter, (s.status directory path).toOption with
    | 't', _ | _, none => false
    | 'f', some (.file _) | 'f', some (.program _) => true
    | 'd', some (.directory _) => true
    | 'c', some (.device _) => true
    | 'x', some (.file _) | 'x', some (.device _) => false
    | 'x', some _ => true
    | 's', some (.file l) => !(s.content (.named l)).isEmpty
    | 's', some (.device _) => false
    | 's', some _ => true
    | letter, some _ => letter ∈ ['e', 'r', 'w', 'O', 'G']
  two a op b :=
    let first := (s.status directory a).toOption
    let second := (s.status directory b).toOption
    match op with
    | ['-', 'e', 'f'] => first.isSome && first = second
    | ['-', 'n', 't'] => first.isSome && second.isNone
    | _ => first.isNone && second.isSome

/-- A step in answering. It may fail, with a complaint. -/
abbrev Step (α : Type) := StateT (List Octets) (Except Octets) α

/-- The complaint about an argument. -/
def complaint (argument : Octets) (message : String) : Octets :=
  (if argument = [] then [] else argument ++ [':', ' ']) ++ message.toList

/-- The question cannot be answered because of an argument. -/
def fail {α : Type} (argument : Octets) (message : String) : Step α :=
  throw (complaint argument message)

/-- The number that an argument stands for. -/
def number (cs : Octets) : Step Int :=
  match Number.whole? false cs with
  | some n => return n
  | none => throw ("Illegal number: ".toList ++ cs)

/-- Compares two arguments. -/
def compare (facts : Facts) (a op b : Octets) : Step Bool := do
  let s := String.ofList op
  if s = "=" then return a = b
  else if s = "!=" then return a ≠ b
  else if s = "<" then return decide (a < b)
  else if s = ">" then return decide (b < a)
  else if s ∈ ["-nt", "-ot", "-ef"] then return facts.two a op b
  else
    let m ← number a
    let n ← number b
    return if s = "-eq" then m = n
      else if s = "-ne" then m ≠ n
      else if s = "-lt" then m < n
      else if s = "-le" then m ≤ n
      else if s = "-gt" then n < m
      else n ≤ m

/-- Steps over arguments. -/
def advance (n : Nat) : Step Unit := modify fun args => args.drop n

/-- Answers the question about one argument that an operator asks. -/
def ask (facts : Facts) (op cs : Octets) : Step Bool := do
  match op with
  | ['-', 'z'] => return cs = []
  | ['-', 'n'] => return cs ≠ []
  | ['-', 't'] => return facts.one 't' (Number.text (← number cs))
  | [_, c] => return facts.one c cs
  | _ => return false

mutual

/-- Questions of which one has to hold. The arguments start with what the sign tells. -/
def disjunction (facts : Facts) : (fuel : Nat) → Sign → Step Bool
  | 0, _ => return false
  | fuel + 1, s => do
    let a ← conjunction facts fuel s
    if sign ((← get).drop 1) = .operator .disjunction then
      advance 2
      let b ← disjunction facts fuel (sign (← get))
      return a || b
    else return a

/-- Questions that all have to hold. -/
def conjunction (facts : Facts) : (fuel : Nat) → Sign → Step Bool
  | 0, _ => return false
  | fuel + 1, s => do
    let a ← negation facts fuel s
    if sign ((← get).drop 1) = .operator .conjunction then
      advance 2
      let b ← conjunction facts fuel (sign (← get))
      return a && b
    else return a

/-- A question, or the opposite of one. -/
def negation (facts : Facts) : (fuel : Nat) → Sign → Step Bool
  | 0, _ => return false
  | fuel + 1, s => do
    if s = .operator .negation then
      let next := sign ((← get).drop 1)
      if next ≠ .finish then advance 1
      return !(← negation facts fuel next)
    else primary facts fuel s

/-- A question without connectives. At its end the last argument that it uses is next. -/
def primary (facts : Facts) : (fuel : Nat) → Sign → Step Bool
  | 0, _ => return false
  | fuel + 1, s => do
    match s with
    | .finish => return false
    | .operator .opening =>
      advance 1
      let next := sign (← get)
      if next = .operator .closing then return false
      else
        let a ← disjunction facts fuel next
        advance 1
        if sign (← get) ≠ .operator .closing then fail [] "closing paren expected"
        return a
    | .operator .unary =>
      match ← get with
      | op :: cs :: rest =>
        set (cs :: rest)
        ask facts op cs
      | args => fail (args.head?.getD []) "argument expected"
    | _ =>
      match ← get with
      | a :: op :: rest =>
        if sign (op :: rest) = .operator .binary then
          match rest with
          | b :: _ =>
            set rest
            compare facts a op b
          | [] => fail op "argument expected"
        else return a ≠ []
      | a :: [] => return a ≠ []
      | [] => return false

end

/-- Answers a question after a sign, and looks at what is left. -/
def answer (facts : Facts) (args : List Octets) (s : Sign) : Except Octets Bool := do
  let (b, rest) ← (disjunction facts (4 * args.length + 8) s).run args
  match rest with
  | a :: _ :: _ => throw (complaint a "unexpected operator")
  | _ => return b

/-- Answers the question that arguments ask. Up to four of them are read by their number. -/
def evaluate (facts : Facts) : List Octets → Except Octets Bool
  | [] => .ok false
  | [['!'], b, c] =>
    if kind? b = some .binary then answer facts [['!'], b, c] .operand
    else (evaluate facts [b, c]).map Bool.not
  | [['!'], b, c, d] => (evaluate facts [b, c, d]).map Bool.not
  | [a, b, c] =>
    if kind? b = some .binary then answer facts [a, b, c] .operand
    else if a = ['('] ∧ c = [')'] then answer facts [b] (sign [b])
    else answer facts [a, b, c] (sign [a, b, c])
  | [a, b, c, d] =>
    if a = ['('] ∧ d = [')'] then answer facts [b, c] (sign [b, c])
    else answer facts [a, b, c, d] (sign [a, b, c, d])
  | args => answer facts args (sign args)

end CompilerFuzz.Host.Test
