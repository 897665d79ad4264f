/-
  CompilerFuzz.Triage.Tagged

  The tagged dialect: a verdict line starts with its severity and a colon. Pass and
  warn lines are keyed by their own text; a fail line by the number after the first
  construct mark that has digits, and it must have one.
-/
import CompilerFuzz.Text.DecimalDigit
import CompilerFuzz.Text.Scan
import CompilerFuzz.Triage.Verdict

namespace CompilerFuzz.Triage.Tagged

open CompilerFuzz.Text

/-- What a verdict line of a severity starts with. -/
def tag (s : Severity) : List Char :=
  s.label.toList ++ [':', ' ']

/-- The verdict line that carries `payload`. -/
def line (s : Severity) (payload : String) : String :=
  String.ofList (tag s ++ payload.toList)

/-- What stands before the number of a construct. -/
def constructMark : List Char :=
  "Construct: ".toList

/-- The digits after a construct mark at the front of the text, of any script. -/
def constructHere? (cs : List Char) : Option (List Char) :=
  match after? constructMark cs with
  | none => none
  | some rest =>
    match rest.takeWhile isDecimalDigit with
    | [] => none
    | digits => some digits

/-- The number of the first construct that a line names. -/
def construct? (cs : List Char) : Option Nat :=
  match leftmost? constructHere? cs with
  | none => none
  | some digits => readNumeral? maxWord64 digits

/-- A line of the tagged dialect. -/
def classify (text : String) : Except TriageError (Option Verdict) :=
  let cs := text.toList
  match after? (tag .pass) cs, after? (tag .warn) cs, after? (tag .fail) cs with
  | some rest, _, _ =>
    .ok (some ⟨.pass, .text (String.ofList rest), String.ofList rest⟩)
  | none, some rest, _ =>
    .ok (some ⟨.warn, .text (String.ofList rest), String.ofList rest⟩)
  | none, none, some rest =>
    -- the whole line is searched, its tag included
    match construct? cs with
    | some n => .ok (some ⟨.fail, .number n, String.ofList rest⟩)
    | none => .error (.malformedFailLine text)
  | none, none, none => .ok none

/-- The tagged dialect: every payload counts, and entries print without keys. -/
def classifier : Classifier where
  classify := classify
  merge _ := .accumulate
  layout := .flat

end CompilerFuzz.Triage.Tagged
