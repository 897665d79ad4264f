/-
  CompilerFuzz.Json.Campaign

  Policies and campaign states as JSON. A value without data is a string; one with data
  is an object of one field, named after it. Reading also takes the object form of a
  value without data, with null in the field, and it overlooks unknown fields beside
  the count of attempts.
-/
import CompilerFuzz.Campaign.Lifecycle
import CompilerFuzz.Campaign.Policy
import CompilerFuzz.Json.Value

namespace CompilerFuzz

open CompilerFuzz.Campaign

namespace Json

/-- Splits a tagged value into its name and its data. -/
def tagged? : Json → Option (String × Option Json)
  | .string name => some (name, none)
  | .object [(name, data)] => some (name, some data)
  | _ => none

/-- Is there nothing in the place of the data? -/
def isVoid : Option Json → Bool
  | none | some .null => true
  | some _ => false

/-- A number of 32 bits. -/
def word32? : Json → Option UInt32
  | .integer n => if 0 ≤ n ∧ n < 0x100000000 then some (UInt32.ofNat n.toNat) else none
  | _ => none

/-- The policy of some attempts that the data describes. -/
def retry? (data : Option Json) : Option Policy :=
  match data with
  | none => none
  | some data => (data.field? "attempts").bind fun n => n.word32?.map .retry

/-- The policy that a value stands for. -/
def policy? (j : Json) : Option Policy :=
  match tagged? j with
  | none => none
  | some (name, data) =>
    if name = "abort" then if isVoid data then some .abort else none
    else if name = "skip" then if isVoid data then some .skip else none
    else if name = "retry" then retry? data
    else none

/-- The campaign state that a value stands for. -/
def lifecycle? (j : Json) : Option Lifecycle :=
  match tagged? j with
  | some (name, data) => if isVoid data then Lifecycle.ofName? name else none
  | none => none

/-- The JSON form of a policy. -/
def ofPolicy : Policy → Json
  | .abort => .string "abort"
  | .skip => .string "skip"
  | .retry n => .object [("retry", .object [("attempts", .integer n.toNat)])]

/-- The JSON form of a campaign state. -/
def ofLifecycle (s : Lifecycle) : Json := .string s.print

/-! ## Reading undoes writing -/

theorem word32?_toNat (n : UInt32) : word32? (.integer n.toNat) = some n := by
  have h : 0 ≤ (n.toNat : Int) ∧ (n.toNat : Int) < 0x100000000 :=
    ⟨Int.natCast_nonneg _, by have := n.toNat_lt; omega⟩
  rw [word32?, if_pos h, Int.toNat_natCast, UInt32.ofNat_toNat]

theorem retry?_toNat (n : UInt32) :
    retry? (some (.object [("attempts", .integer n.toNat)])) = some (.retry n) := by
  have h : field? "attempts" (.object [("attempts", .integer n.toNat)])
      = some (.integer n.toNat) := by simp [field?]
  unfold retry?
  dsimp only
  rw [h, Option.bind_some, word32?_toNat, Option.map_some]

theorem policy?_ofPolicy (p : Policy) : (ofPolicy p).policy? = some p := by
  cases p with
  | abort => simp [ofPolicy, policy?, tagged?, isVoid]
  | skip => simp [ofPolicy, policy?, tagged?, isVoid]
  | retry n => simp [ofPolicy, policy?, tagged?, retry?_toNat]

theorem lifecycle?_ofLifecycle (s : Lifecycle) : (ofLifecycle s).lifecycle? = some s := by
  cases s <;> decide

end Json

end CompilerFuzz
