/-
  CompilerFuzz.Triage.Table

  A classifier written down line by line: the first rule for a line decides, and a
  line without a rule is no verdict.
-/
import CompilerFuzz.Triage.Verdict

namespace CompilerFuzz.Triage

/-- What a table says about one line; `none` calls the line malformed. -/
structure Rule where
  line : String
  verdict : Option Verdict
  deriving DecidableEq, Repr

/-- The classifier of a table. -/
def Classifier.ofRules (rules : List Rule) (merge : Severity → Merge) (layout : Layout) :
    Classifier where
  classify line :=
    match rules.find? fun r => r.line == line with
    | none => .ok none
    | some ⟨_, some v⟩ => .ok (some v)
    | some ⟨_, none⟩ => .error (.malformedFailLine line)
  merge := merge
  layout := layout

end CompilerFuzz.Triage
