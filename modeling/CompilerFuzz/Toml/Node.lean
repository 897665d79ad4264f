/-
  CompilerFuzz.Toml.Node

  Tables under construction. Each remembers how it came to be, because that decides who
  may still add to it: a header opens a table once, dotted keys add only to tables that
  dotted keys made, and a value is closed. `assign` sets one key, `openTable` and
  `openElement` follow a header.
-/
import CompilerFuzz.Toml.Key
import CompilerFuzz.Toml.Value

namespace CompilerFuzz.Toml

/-- How a table came to be. -/
inductive Origin
  /-- By a header of its own. -/
  | header
  /-- On the way to the table of another header. -/
  | passage
  /-- On the way of a dotted key. -/
  | dotted
  deriving DecidableEq, Repr

/-- A part of a document under construction. -/
inductive Node
  | value (v : Value)
  | table (origin : Origin) (fields : List (String × Node))
  /-- An array of tables, one for each header; only the last one can grow. -/
  | tables (elements : List (List (String × Node)))
  deriving Inhabited

/-- The entries of a table under construction. -/
abbrev Fields := List (String × Node)

namespace Fields

/-- Sets the entry under `key`. -/
def put (key : String) (node : Node) : Fields → Fields
  | [] => [(key, node)]
  | (k, n) :: rest => if k = key then (key, node) :: rest else (k, n) :: put key node rest

/-- Changes the last element of a list. -/
def changeLast {α : Type} (f : α → Option α) : List α → Option (List α)
  | [] => none
  | [x] => (f x).map fun y => [y]
  | x :: y :: rest => (changeLast f (y :: rest)).map (x :: ·)

/-- Sets a key in the table that dotted `parents` lead to. The key must be new, and the
    table must be the one it is written in (`atHome`) or made by dotted keys alone. -/
def assign (atHome : Bool) (key : String) (v : Value) : List String → Fields → Option Fields
  | [], fields =>
    if atHome ∧ fields.lookup key = none then some (put key (.value v) fields) else none
  | parent :: parents, fields =>
    match fields.lookup parent with
    | none => (assign true key v parents []).map fun inner => put parent (.table .dotted inner) fields
    | some (.table origin inner) =>
      -- dotted keys do not add to a table that has a header of its own
      if origin = .header then none
      else (assign (origin == .dotted) key v parents inner).map fun inner =>
        put parent (.table origin inner) fields
    | some (.tables elements) =>
      (changeLast (assign false key v parents) elements).map fun elements =>
        put parent (.tables elements) fields
    | some (.value _) => none

/-- Changes the table that the path of a header leads to, making the tables on the way. -/
def within (f : Fields → Option Fields) : List String → Fields → Option Fields
  | [], fields => f fields
  | name :: path, fields =>
    match fields.lookup name with
    | none => (within f path []).map fun inner => put name (.table .passage inner) fields
    | some (.table origin inner) =>
      (within f path inner).map fun inner => put name (.table origin inner) fields
    -- a header that leads through an array of tables means its last table
    | some (.tables elements) =>
      (changeLast (within f path) elements).map fun elements => put name (.tables elements) fields
    | some (.value _) => none

/-- Opens the table under `key`: a new one, or one that headers only passed through. -/
def openHere (key : String) (fields : Fields) : Option Fields :=
  match fields.lookup key with
  | none => some (put key (.table .header []) fields)
  -- a table that was only passed through may still get its own header, once
  | some (.table .passage inner) => some (put key (.table .header inner) fields)
  | some _ => none

/-- Adds an element to the array of tables under `key`. -/
def addHere (key : String) (fields : Fields) : Option Fields :=
  match fields.lookup key with
  | none => some (put key (.tables [[]]) fields)
  | some (.tables elements) => some (put key (.tables (elements ++ [[]])) fields)
  | some _ => none

/-- Follows the header of a table. -/
def openTable (path : KeyPath) : Fields → Option Fields :=
  within (openHere path.key) path.parents

/-- Follows the header of an element of an array of tables. -/
def openElement (path : KeyPath) : Fields → Option Fields :=
  within (addHere path.key) path.parents

end Fields

/-! ## Finished values -/

mutual

/-- The value that a finished part stands for. -/
def Node.seal : Node → Value
  | .value v => v
  | .table _ fields => .table (sealFields fields)
  | .tables elements => .array (sealElements elements)

/-- The finished entries of a table. -/
def sealFields : List (String × Node) → Table
  | [] => []
  | (key, node) :: rest => (key, node.seal) :: sealFields rest

/-- The finished tables of an array. -/
def sealElements : List (List (String × Node)) → List Value
  | [] => []
  | fields :: rest => .table (sealFields fields) :: sealElements rest

end

end CompilerFuzz.Toml
