/-
  CompilerFuzz.Host.Pattern

  Patterns for texts. A star stands for any text, a question mark for any character, and
  brackets for one of a set of characters. A quoted character stands for itself.
-/
import CompilerFuzz.Host.Octets

namespace CompilerFuzz.Host.Pattern

/-- A character of a pattern, and whether it is quoted. -/
abbrev Mark := Char × Bool

/-- What may stand between brackets. -/
inductive Member
  | between (a b : Char)
  | ofClass (name : String)
  deriving DecidableEq, Repr

/-- A piece of a pattern. -/
inductive Atom
  | exactly (c : Char)
  | one
  | any
  | oneOf (negated : Bool) (members : List Member)
  deriving DecidableEq, Repr

/-- Is the character in a class? -/
def inClass (name : String) (c : Char) : Bool :=
  if name = "alpha" then c.isAlpha
  else if name = "digit" then c.isDigit
  else if name = "alnum" then c.isAlphanum
  else if name = "upper" then c.isUpper
  else if name = "lower" then c.isLower
  else if name = "space" then c ∈ [' ', '\t', '\n', '\r', '\x0b', '\x0c']
  else if name = "blank" then c = ' ' || c = '\t'
  else if name = "punct" then '!' ≤ c && c ≤ '~' && !c.isAlphanum
  else if name = "print" then ' ' ≤ c && c ≤ '~'
  else if name = "graph" then '!' ≤ c && c ≤ '~'
  else if name = "cntrl" then c < ' ' || c = '\x7f'
  else if name = "xdigit" then c.isDigit || ('a' ≤ c && c ≤ 'f') || ('A' ≤ c && c ≤ 'F')
  else false

/-- Is the character what stands between brackets? -/
def Member.contains (c : Char) : Member → Bool
  | .between a b => a ≤ c && c ≤ b
  | .ofClass name => inClass name c

/-- The name of a class up to its end, and what follows. -/
def className? : List Mark → Option (String × List Mark)
  | (':', false) :: (']', false) :: rest => some ("", rest)
  | (c, _) :: rest => (className? rest).map fun r => (String.singleton c ++ r.1, r.2)
  | [] => none

/-- The members of a set up to its closing bracket, and what follows; `none` if it is not
    closed. At the start a bracket is a member. -/
def members? : (fuel : Nat) → (start : Bool) → List Mark → Option (List Member × List Mark)
  | 0, _, _ => none
  | _ + 1, _, [] => none
  | fuel + 1, start, (c, quoted) :: rest =>
    if c = ']' ∧ ¬ quoted ∧ ¬ start then some ([], rest)
    else if c = '[' ∧ ¬ quoted ∧ rest.head? = some (':', false) ∧ (className? (rest.drop 1)).isSome then
      match className? (rest.drop 1) with
      | some (name, rest) => (members? fuel false rest).map fun r => (.ofClass name :: r.1, r.2)
      | none => none
    else
      match rest with
      | ('-', false) :: (d, dq) :: rest' =>
        if d = ']' ∧ ¬ dq then (members? fuel false rest).map fun r => (.between c c :: r.1, r.2)
        else (members? fuel false rest').map fun r => (.between c d :: r.1, r.2)
      | rest => (members? fuel false rest).map fun r => (.between c c :: r.1, r.2)

/-- The set that starts after an opening bracket, and what follows. -/
def set? (fuel : Nat) (ms : List Mark) : Option (Atom × List Mark) :=
  match ms with
  | (c, false) :: rest =>
    if c = '!' ∨ c = '^' then (members? fuel true rest).map fun r => (.oneOf true r.1, r.2)
    else (members? fuel true ms).map fun r => (.oneOf false r.1, r.2)
  | ms => (members? fuel true ms).map fun r => (.oneOf false r.1, r.2)

/-- The pieces of a pattern. The fuel is at least its length. -/
def atoms : (fuel : Nat) → List Mark → List Atom
  | 0, _ => []
  | _ + 1, [] => []
  | fuel + 1, (c, quoted) :: rest =>
    if quoted then .exactly c :: atoms fuel rest
    else if c = '*' then .any :: atoms fuel rest
    else if c = '?' then .one :: atoms fuel rest
    else if c = '[' then
      match set? (rest.length + 1) rest with
      | some (a, rest) => a :: atoms fuel rest
      | none => .exactly c :: atoms fuel rest
    else if c = '\\' then
      match rest with
      | (d, _) :: rest => .exactly d :: atoms fuel rest
      | [] => [.exactly c]
    else .exactly c :: atoms fuel rest

/-- The pieces of a pattern. -/
def ofMarks (ms : List Mark) : List Atom := atoms ms.length ms

/-- Does the pattern match the whole text? -/
def fits : List Atom → Octets → Bool
  | [], cs => cs = []
  | .any :: as, [] => fits as []
  | .any :: as, c :: cs => fits as (c :: cs) || fits (.any :: as) cs
  | .one :: as, _ :: cs => fits as cs
  | .exactly d :: as, c :: cs => c = d && fits as cs
  | .oneOf negated members :: as, c :: cs =>
    ((members.any (Member.contains c)) != negated) && fits as cs
  | .one :: _, [] | .exactly _ :: _, [] | .oneOf .. :: _, [] => false
termination_by as cs => (as.length, cs.length)

/-- Does a character of the pattern stand for anything but itself? -/
def isActive (ms : List Mark) : Bool :=
  ms.any fun m => !m.2 && (m.1 = '*' || m.1 = '?' || m.1 = '[')

/-- The ways to cut a text in two, the shortest first part first. -/
def cuts (cs : Octets) : List (Octets × Octets) :=
  (List.range (cs.length + 1)).map fun n => (cs.take n, cs.drop n)

/-- The text without what a pattern matches at its end or at its start. -/
def trim (atEnd longest : Bool) (ms : List Mark) (cs : Octets) : Octets :=
  let as := ofMarks ms
  let candidates := if atEnd != longest then (cuts cs).reverse else cuts cs
  if atEnd then
    match candidates.find? fun c => fits as c.2 with
    | some c => c.1
    | none => cs
  else
    match candidates.find? fun c => fits as c.1 with
    | some c => c.2
    | none => cs

end CompilerFuzz.Host.Pattern
