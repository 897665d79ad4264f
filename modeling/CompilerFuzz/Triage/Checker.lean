/-
  CompilerFuzz.Triage.Checker

  The checker dialect: a verdict may stand anywhere in a line, as a mark, a word, a
  line number and a message in parentheses. The message runs to the last closing
  parenthesis before the line breaks, and blanks around it do not count. A number that
  is no word of 64 bits makes the whole line no verdict.
-/
import CompilerFuzz.Text.Blank
import CompilerFuzz.Text.DecimalDigit
import CompilerFuzz.Text.Scan
import CompilerFuzz.Triage.Verdict

namespace CompilerFuzz.Triage.Checker

open CompilerFuzz.Text

/-- What the pattern finds at one position. -/
structure Finding where
  severity : Severity
  digits : List Char
  message : List Char
  deriving DecidableEq, Repr

/-- The word that the checker writes for a severity. -/
def word : Severity → List Char
  | .pass => "Pass".toList
  | .warn => "Warn".toList
  | .fail => "Fail".toList

/-- The verdict line with the given number and message. -/
def line (s : Severity) (number : Nat) (message : String) : String :=
  String.ofList ("[Checker] ".toList ++ word s ++ "! ".toList ++ numeral number ++ " (".toList
    ++ message.toList ++ [')'])

/-- Everything before the last closing parenthesis of the current line. -/
def messageHere? (cs : List Char) : Option (List Char) :=
  match (cs.takeWhile (· ≠ '\n')).reverse.dropWhile (· ≠ ')') with
  | [] => none
  | _ :: before => some before.reverse

/-- What follows the word of a severity. -/
def findingAfter? (s : Severity) (cs : List Char) : Option Finding :=
  match after? "! ".toList cs with
  | none => none
  | some rest =>
    match rest.takeWhile isDecimalDigit with
    | [] => none
    | digits =>
      match after? " (".toList (rest.dropWhile isDecimalDigit) with
      | none => none
      | some body => (messageHere? body).map fun m => ⟨s, digits, m⟩

/-- The pattern at the front of the text. -/
def findingHere? (cs : List Char) : Option Finding :=
  match after? "[Checker] ".toList cs with
  | none => none
  | some rest =>
    match after? (word .pass) rest with
    | some rest => findingAfter? .pass rest
    | none =>
      match after? (word .fail) rest with
      | some rest => findingAfter? .fail rest
      | none => none

/-- A line of the checker dialect. -/
def verdict? (text : String) : Option Verdict :=
  match leftmost? findingHere? text.toList with
  | none => none
  | some f =>
    match readNumeral? maxWord64 f.digits with
    -- digits of another script or too large a number: the line is passed over
    | none => none
    | some n => some ⟨f.severity, .number n, String.ofList (trim f.message)⟩

/-- The checker dialect: a later pass message replaces an earlier one under the same
    number, and each key prints on one line. -/
def classifier : Classifier where
  classify text := .ok (verdict? text)
  merge
    | .pass => .replace
    | .warn | .fail => .accumulate
  layout := .keyed

end CompilerFuzz.Triage.Checker
