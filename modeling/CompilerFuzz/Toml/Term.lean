/-
  CompilerFuzz.Toml.Term

  Values with their parts: arrays, which may run over several lines and end in a comma,
  and inline tables, which may not. Values nest to a limited depth.
-/
import CompilerFuzz.Toml.Node
import CompilerFuzz.Toml.Scalar

namespace CompilerFuzz.Toml

open CompilerFuzz.Text

/-- A reader of one value. -/
abbrev ValueReader := (cs : List Char) → Option (Front Value cs)

/-- What follows an item of an array: whether another item comes, and the text from there
    on. A comma may stand before the closing bracket. -/
def afterItem? (cs : List Char) : Option (Bool × List Char) :=
  match skipTrivia cs with
  | ']' :: rest => some (false, rest)
  | ',' :: rest =>
    match skipTrivia rest with
    | ']' :: rest => some (false, rest)
    | next => some (true, next)
  | _ => none

theorem length_afterItem?_le {cs rest : List Char} {more : Bool}
    (h : afterItem? cs = some (more, rest)) : rest.length ≤ cs.length := by
  have hs := length_skipTrivia_le cs
  unfold afterItem? at h
  split at h
  · next r hr =>
    cases h
    rw [hr, List.length_cons] at hs
    omega
  · next r hr =>
    have ht := length_skipTrivia_le r
    rw [hr, List.length_cons] at hs
    split at h
    · next r' hr' =>
      cases h
      rw [hr', List.length_cons] at ht
      omega
    · cases h
      omega
  · cases h

theorem length_lt_of_afterItem? {α : Type} {cs : List Char} (v : Front α cs) {more : Bool}
    {rest : List Char} (h : afterItem? v.rest = some (more, rest)) : rest.length < cs.length :=
  Nat.lt_of_le_of_lt (length_afterItem?_le h) v.shorter

theorem length_le_of_afterItem? {α : Type} {cs : List Char} (v : Front α cs) {more : Bool}
    {rest : List Char} (h : afterItem? v.rest = some (more, rest)) : rest.length ≤ cs.length :=
  Nat.le_of_lt (length_lt_of_afterItem? v h)

/-- The items of an array, from the first one up to the closing bracket. -/
def items? (value : ValueReader) (cs : List Char) : Option (Front (List Value) cs) :=
  match value cs with
  | none => none
  | some v =>
    match _h : afterItem? v.rest with
    | none => none
    | some (false, rest) => some ⟨[v.value], rest, length_lt_of_afterItem? v _h⟩
    | some (true, rest) =>
      (items? value rest).map fun r =>
        (r.map (v.value :: ·)).within (length_le_of_afterItem? v _h)
termination_by cs.length
decreasing_by exact length_lt_of_afterItem? v _h

/-- An array; its opening bracket is already read. -/
def array? (value : ValueReader) (cs : List Char) : Option (Front (List Value) cs) :=
  have hs := length_skipTrivia_le cs
  match _h : skipTrivia cs with
  | ']' :: rest => some ⟨[], rest, by rw [_h, List.length_cons] at hs; omega⟩
  | next => (items? value next).map fun r => r.within (by rw [_h] at hs; exact hs)

/-- One key of a table and its value, on one line. -/
def entry? (value : ValueReader) (cs : List Char) : Option (Front (KeyPath × Value) cs) :=
  match keyPath? cs with
  | none => none
  | some k =>
    match _h : k.rest with
    | '=' :: rest =>
      (value (skipSpace rest)).map fun v =>
        (v.map fun v => (k.value, v)).within (by
          have h₁ := length_skipSpace_le rest
          have h₂ := k.shorter
          rw [_h, List.length_cons] at h₂
          omega)
    | _ => none

/-- The entries of an inline table, from the first one up to the closing brace. -/
def entries? (value : ValueReader) (cs : List Char) :
    Option (Front (List (KeyPath × Value)) cs) :=
  match entry? value cs with
  | none => none
  | some e =>
    have he := e.shorter
    have hs := length_skipSpace_le e.rest
    match _h : skipSpace e.rest with
    | '}' :: rest => some ⟨[e.value], rest, by rw [_h, List.length_cons] at hs; omega⟩
    | ',' :: rest =>
      (entries? value rest).map fun r =>
        (r.map (e.value :: ·)).within (by rw [_h, List.length_cons] at hs; omega)
    | _ => none
termination_by cs.length
decreasing_by
  rw [_h, List.length_cons] at hs
  omega

/-- The table that has the given entries, if they do not contradict each other. -/
def inlineTable? (entries : List (KeyPath × Value)) : Option Table :=
  (entries.foldlM (fun fields e => Fields.assign true e.1.key e.2 e.1.parents fields) []).map
    sealFields

/-- An inline table; its opening brace is already read. -/
def braces? (value : ValueReader) (cs : List Char) : Option (Front Table cs) :=
  have hs := length_skipSpace_le cs
  match _h : skipSpace cs with
  | '}' :: rest => some ⟨[], rest, by rw [_h, List.length_cons] at hs; omega⟩
  | next =>
    match entries? value next with
    | none => none
    | some r =>
      (inlineTable? r.value).map fun t =>
        (r.map fun _ => t).within (by rw [_h] at hs; exact hs)

/-- A value whose arrays and inline tables are at most `levels` deep. -/
def valueWithin? : (levels : Nat) → ValueReader
  | 0, cs => scalar? cs
  | levels + 1, cs =>
    match cs with
    | '[' :: rest => (array? (valueWithin? levels) rest).map fun r => (r.map .array).cons
    | '{' :: rest => (braces? (valueWithin? levels) rest).map fun r => (r.map .table).cons
    | cs => scalar? cs

/-- How deep arrays and inline tables may nest. -/
def maxLevels : Nat := 79

/-- A value. -/
def value? : ValueReader :=
  valueWithin? maxLevels

end CompilerFuzz.Toml
