/-
  CompilerFuzz.Json.Value

  JSON values. A number keeps its decimal form: an integer, or digits with a fraction.
-/

namespace CompilerFuzz

/-- A JSON value. The fields of an object stand in the order in which they were written. -/
inductive Json
  | null
  | bool (b : Bool)
  | integer (n : Int)
  /-- A number with a fraction: `digits / 10 ^ places`, where `places` is positive. -/
  | decimal (digits : Int) (places : Nat)
  | string (s : String)
  | array (items : List Json)
  | object (fields : List (String × Json))
  deriving Inhabited

namespace Json

/-- The value under a name, if the value is an object that has it. -/
def field? (name : String) : Json → Option Json
  | .object fields => fields.lookup name
  | _ => none

end Json

end CompilerFuzz
