/-
  CompilerFuzz.CommandLine.Fault

  Why a command failed, as it is told to the user: what was attempted, and the chain of
  causes. A single cause is indented; several are numbered. Further lines of a cause stand
  under its first.
-/
import CompilerFuzz.Campaign.Tool
import CompilerFuzz.Settings.Basic
import CompilerFuzz.Triage.Verdict

namespace CompilerFuzz

open CompilerFuzz.Text

/-- The causes of a settings error, outermost first. -/
def SettingsError.causes (e : SettingsError) : List String :=
  e.message :: match e with
    | .unreadable _ cause => [cause.message]
    | .unparsable fault => [fault.message]
    | .invalid _ => []

/-- The causes of a campaign error, outermost first. -/
def Campaign.CampaignError.causes (e : Campaign.CampaignError) : List String :=
  e.message :: match e with
    | .spawn _ _ cause | .io _ cause => [cause.message]
    | .toolchain .. | .generator .. | .invalidTransition .. => []

/-- The causes of a triage error, outermost first. -/
def Triage.TriageError.causes (e : Triage.TriageError) : List String :=
  e.message :: match e with
    | .unreadable _ cause => [cause.message]
    | .malformedFailLine _ => []

namespace CommandLine

/-- Why a command failed. -/
structure Fault where
  /-- What was attempted. -/
  context : String
  /-- Outermost first. -/
  causes : List String
  deriving DecidableEq, Repr

namespace Fault

/-- A text behind a label, its further lines as far to the right as its first. -/
def labelled (label text : List Char) : List Char :=
  label ++ text.flatMap fun c =>
    if c = '\n' then '\n' :: List.replicate label.length ' ' else [c]

/-- Width of the number of a cause. -/
def numberWidth : Nat := 5

/-- The number of a cause, counted from zero. -/
def number (i : Nat) : List Char :=
  List.replicate (numberWidth - (numeral i).length) ' ' ++ numeral i ++ [':', ' ']

/-- Indentation of a cause without a number. -/
def indentation : List Char := List.replicate 4 ' '

/-- The causes, each from a new line on. -/
def causeLines (causes : List String) : List Char :=
  match causes with
  -- a single cause has no number
  | [cause] => '\n' :: labelled indentation cause.toList
  | causes => causes.zipIdx.flatMap fun c => '\n' :: labelled (number c.2) c.1.toList

/-- The text of a fault. -/
def text (f : Fault) : String :=
  "Error: " ++ f.context ++
    (if f.causes = [] then "" else "\n\nCaused by:" ++ String.ofList (causeLines f.causes)) ++ "\n"

end Fault

end CommandLine

end CompilerFuzz
