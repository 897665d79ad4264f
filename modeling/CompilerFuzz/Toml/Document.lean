/-
  CompilerFuzz.Toml.Document

  Documents: a text is a sequence of statements, one a line, and the statements build the
  table of the document from top to bottom. A header moves to another table, an
  assignment adds to the current one.
-/
import CompilerFuzz.Toml.Term

namespace CompilerFuzz.Toml

open CompilerFuzz.Text

/-- One line of a document, comments and blank lines apart. -/
inductive Statement
  /-- The header of a table. -/
  | table (path : KeyPath)
  /-- The header of an element of an array of tables. -/
  | element (path : KeyPath)
  | assign (path : KeyPath) (v : Value)

/-! ## Reading -/

/-- What follows a reader's value on the same line: nothing but a comment. -/
def endingLine? {α : Type} {cs : List Char} (r : Front α cs) : Option (Front α cs) :=
  match _h : lineEnd? r.rest with
  | some rest => some ⟨r.value, rest, Nat.lt_of_le_of_lt (length_lineEnd?_le _h) r.shorter⟩
  | none => none

/-- A path and the closing of its header. -/
def headerPath? (closing : List Char) (cs : List Char) : Option (Front KeyPath cs) :=
  match keyPath? cs with
  | none => none
  | some k =>
    if closing.isPrefixOf k.rest then
      endingLine? ⟨k.value, k.rest.drop closing.length,
        Nat.lt_of_le_of_lt (by simp) k.shorter⟩
    else none

/-- The statement at the front of a text that is not blank there. -/
def statement? (cs : List Char) : Option (Front Statement cs) :=
  match cs with
  -- two brackets must stand together: with a blank between them no path follows the first
  | '[' :: '[' :: rest =>
    (headerPath? [']', ']'] rest).map fun r => (r.map .element).cons.cons
  | '[' :: rest => (headerPath? [']'] rest).map fun r => (r.map .table).cons
  | cs =>
    match entry? value? cs with
    | none => none
    | some e => (endingLine? e).map fun r => r.map fun e => .assign e.1 e.2

/-- The statements of a text. -/
def statements? (cs : List Char) : Option (List Statement) :=
  match _h : skipTrivia cs with
  | [] => some []
  | next =>
    match statement? next with
    | none => if lineEnd? next = some [] then some [] else none
    | some s => (statements? s.rest).map (s.value :: ·)
termination_by cs.length
decreasing_by
  have h₁ := length_skipTrivia_le cs
  have h₂ := s.shorter
  rw [_h] at h₁
  omega

/-! ## Building -/

/-- A document under construction: its tables, and the path of the current one. -/
structure Draft where
  root : Fields
  current : List String

/-- The keys of a path, in order. -/
def KeyPath.all (p : KeyPath) : List String :=
  p.parents ++ [p.key]

/-- Follows one statement. -/
def Draft.follow (d : Draft) : Statement → Option Draft
  | .table path => (Fields.openTable path d.root).map fun root => ⟨root, path.all⟩
  | .element path => (Fields.openElement path d.root).map fun root => ⟨root, path.all⟩
  | .assign path v =>
    (Fields.within (Fields.assign true path.key v path.parents) d.current d.root).map fun root =>
      ⟨root, d.current⟩

/-- The table that statements build, if they do not contradict each other. -/
def build? (statements : List Statement) : Option Table :=
  (statements.foldlM Draft.follow ⟨[], []⟩).map fun d => sealFields d.root

/-- The text without the byte order mark at its front. -/
def dropMark : List Char → List Char
  | '\uFEFF' :: rest => rest
  | cs => cs

/-- The table of a document. -/
def read? (cs : List Char) : Option Table :=
  (statements? (dropMark cs)).bind build?

end CompilerFuzz.Toml
