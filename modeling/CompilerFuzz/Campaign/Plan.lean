/-
  CompilerFuzz.Campaign.Plan

  The plan of one campaign: its time budget, how each iteration exercises the
  toolchain, and the generator policy. A plan can only be had through `Plan.make`,
  which refuses levels that the compiler does not know and names that are no single
  pass.
-/
import CompilerFuzz.Campaign.Policy
import CompilerFuzz.Span.Basic
import CompilerFuzz.Text.Blank
import CompilerFuzz.Text.Quoted

namespace CompilerFuzz.Campaign

open CompilerFuzz.Text

/-- The highest optimization level of the pipeline. -/
def maxLevel : Nat := 3

/-- How each iteration exercises the toolchain. -/
inductive Mode
  /-- The whole optimization pipeline at one level, down to a binary. -/
  | pipeline (level : UInt8)
  /-- The normalization pass and then one named pass; the output is discarded. -/
  | singlePass (name : String)
  deriving DecidableEq, Repr

/-- The mode in words. -/
def Mode.print : Mode → String
  | .pipeline level => "pipeline -O" ++ numeralText level.toNat
  | .singlePass name => "single pass " ++ name

/-- Why a plan is refused. -/
inductive PlanError
  | levelOutOfRange (level : UInt8)
  | passNameEmpty
  /-- The optimizer would take the name for several passes. -/
  | severalPasses (name : String)
  deriving DecidableEq, Repr

/-- The words for a refusal. -/
def PlanError.message : PlanError → String
  | .levelOutOfRange level =>
    "optimization level " ++ numeralText level.toNat ++ " out of range 0..=" ++ numeralText maxLevel
  | .passNameEmpty => "pass name is empty"
  | .severalPasses name => "pass name " ++ quoted name ++ " must name exactly one pass"

/-- Does a mode ask for something that the tools can do? -/
def Mode.check : Mode → Except PlanError Unit
  | .pipeline level => if level.toNat ≤ maxLevel then .ok () else .error (.levelOutOfRange level)
  | .singlePass name =>
    if trim name.toList = [] then .error .passNameEmpty
    else if ',' ∈ name.toList then .error (.severalPasses name)
    else .ok ()

/-- What a mode is refused for: a level that the compiler does not know, a name of nothing but
    white space, or a name with a comma. -/
inductive Mode.Refused : Mode → PlanError → Prop
  | levelOutOfRange {level : UInt8} (h : maxLevel < level.toNat) :
      Refused (.pipeline level) (.levelOutOfRange level)
  | passNameEmpty {name : String} (h : ∀ c ∈ name.toList, isBlank c = true) :
      Refused (.singlePass name) .passNameEmpty
  | severalPasses {name : String} (hname : ∃ c ∈ name.toList, isBlank c = false)
      (h : ',' ∈ name.toList) : Refused (.singlePass name) (.severalPasses name)

/-- The parameters of one campaign. -/
structure Plan where
  budget : Span
  mode : Mode
  policy : Policy
  valid : mode.check = .ok ()

/-- The plan with the given parameters, if the mode is valid. -/
def Plan.make (budget : Span) (mode : Mode) (policy : Policy) : Except PlanError Plan :=
  match h : mode.check with
  | .ok () => .ok ⟨budget, mode, policy, h⟩
  | .error e => .error e

/-! ## What is refused -/

theorem Mode.check_eq_error_iff {m : Mode} {e : PlanError} : m.check = .error e ↔ m.Refused e := by
  constructor
  · intro h
    cases m with
    | pipeline level =>
      dsimp only [check] at h
      split at h
      · cases h
      · next hlevel =>
        cases h
        exact .levelOutOfRange (Nat.lt_of_not_le hlevel)
    -- a blank name is refused before commas are looked for
    | singlePass name =>
      dsimp only [check] at h
      split at h
      · next hblank =>
        cases h
        exact .passNameEmpty (trim_eq_nil_iff.1 hblank)
      · next hblank =>
        split at h
        · next hcomma =>
          cases h
          exact .severalPasses (trim_ne_nil_iff.1 hblank) hcomma
        · cases h
  · intro h
    cases h with
    | levelOutOfRange h => exact if_neg (Nat.not_le_of_lt h)
    | passNameEmpty h => exact if_pos (trim_eq_nil_iff.2 h)
    | severalPasses hname hcomma =>
      dsimp only [check]
      rw [if_neg (trim_ne_nil_iff.2 hname), if_pos hcomma]

theorem Mode.check_eq_ok_iff {m : Mode} : m.check = .ok () ↔ ∀ e, ¬ m.Refused e := by
  simp only [← check_eq_error_iff]
  cases m.check <;> simp

section Make

variable {budget : Span} {mode : Mode} {policy : Policy}

theorem Plan.make_eq_error_iff {e : PlanError} :
    make budget mode policy = .error e ↔ mode.Refused e := by
  rw [← Mode.check_eq_error_iff]
  unfold make
  split
  · next h => simp [h]
  · next h => simp [h]

/-- A plan keeps what it is made of. -/
theorem Plan.make_eq_ok_iff {p : Plan} :
    make budget mode policy = .ok p ↔ p.budget = budget ∧ p.mode = mode ∧ p.policy = policy := by
  unfold make
  constructor
  · intro h
    split at h
    · cases h
      exact ⟨rfl, rfl, rfl⟩
    · cases h
  · rintro ⟨rfl, rfl, rfl⟩
    split
    · rfl
    · next h =>
      rw [p.valid] at h
      cases h

end Make

end CompilerFuzz.Campaign
