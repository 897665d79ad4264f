/-
  CompilerFuzz.Toml.Value

  TOML values and tables. Numbers with a fraction and dates are kept as they are
  written: nothing here computes with them.
-/

namespace CompilerFuzz.Toml

/-- A TOML value. The entries of a table stand in the order in which they were made, no
    two under one name. -/
inductive Value
  | string (s : String)
  | integer (n : Int)
  | float (text : String)
  | boolean (b : Bool)
  | dateTime (text : String)
  | array (items : List Value)
  | table (entries : List (String × Value))
  deriving Inhabited

/-- A TOML table, such as a whole document. -/
abbrev Table := List (String × Value)

end CompilerFuzz.Toml
