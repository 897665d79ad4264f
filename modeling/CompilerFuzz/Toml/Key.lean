/-
  CompilerFuzz.Toml.Key

  Keys: a bare word or a quoted string of one line, and dotted paths of them. Quoted and
  bare keys with the same characters are the same key.
-/
import CompilerFuzz.Toml.Quotation

namespace CompilerFuzz.Toml

open CompilerFuzz.Text

/-- A dotted path: the tables on the way, and the key in the last one. -/
structure KeyPath where
  parents : List String
  key : String
  deriving DecidableEq, Repr

/-- May `c` stand in a key without quotes? -/
def isBareChar (c : Char) : Bool :=
  c.isAlphanum || c == '-' || c == '_'

/-- The key with `parent` in front. -/
def KeyPath.push (parent : String) (p : KeyPath) : KeyPath :=
  ⟨parent :: p.parents, p.key⟩

/-- How many keys a path has. -/
def KeyPath.size (p : KeyPath) : Nat :=
  p.parents.length + 1

/-- A key without quotes. -/
def bareKey? (cs : List Char) : Option (Front (List Char) cs) :=
  match _h : cs.dropWhile isBareChar with
  | rest =>
    if _hlt : rest.length < cs.length then some ⟨cs.takeWhile isBareChar, rest, _hlt⟩ else none

/-- One key. -/
def key? (cs : List Char) : Option (Front String cs) :=
  match lineQuoted? cs with
  | some r => some (r.map String.ofList)
  | none => (bareKey? cs).map fun r => r.map String.ofList

/-- What follows a dot at the front. -/
def afterDot? : List Char → Option (List Char)
  | c :: rest => if c = '.' then some rest else none
  | [] => none

theorem eq_of_afterDot? {cs rest : List Char} (h : afterDot? cs = some rest) : cs = '.' :: rest := by
  cases cs with
  | nil => cases h
  | cons c cs =>
    rw [afterDot?] at h
    split at h
    · next hc => cases h; rw [hc]
    · cases h

/-- What follows a key and the blanks after it is shorter than the text with the key. -/
theorem length_afterKey_lt (cs : List Char) (k : Front String (skipSpace cs)) :
    (skipSpace k.rest).length < cs.length :=
  Nat.lt_of_le_of_lt (length_skipSpace_le k.rest)
    (Nat.lt_of_lt_of_le k.shorter (length_skipSpace_le cs))

/-- The same if a dot follows, of what is behind the dot. -/
theorem length_afterDot_lt (cs : List Char) (k : Front String (skipSpace cs)) (rest : List Char)
    (h : afterDot? (skipSpace k.rest) = some rest) : rest.length < cs.length := by
  have hk := length_afterKey_lt cs k
  rw [eq_of_afterDot? h, List.length_cons] at hk
  omega

theorem length_afterDot_le (cs : List Char) (k : Front String (skipSpace cs)) (rest : List Char)
    (h : afterDot? (skipSpace k.rest) = some rest) : rest.length ≤ cs.length :=
  Nat.le_of_lt (length_afterDot_lt cs k rest h)

/-- A dotted path; blanks may stand around its keys, and those after it are read too. -/
def dotted? (cs : List Char) : Option (Front KeyPath cs) :=
  match key? (skipSpace cs) with
  | none => none
  | some k =>
    match _h : afterDot? (skipSpace k.rest) with
    | some rest =>
      (dotted? rest).map fun r => (r.map (KeyPath.push k.value)).within (length_afterDot_le cs k rest _h)
    | none => some ⟨⟨[], k.value⟩, skipSpace k.rest, length_afterKey_lt cs k⟩
termination_by cs.length
decreasing_by exact length_afterDot_lt cs k rest _h

/-- A path has fewer keys than this. -/
def maxPathSize : Nat := 80

/-- A path that is not too long. -/
def keyPath? (cs : List Char) : Option (Front KeyPath cs) :=
  match dotted? cs with
  | none => none
  | some r => if r.value.size < maxPathSize then some r else none

end CompilerFuzz.Toml
