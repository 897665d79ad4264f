/-
  CompilerFuzz.Triage.Verdict

  What a classifier says about one line: nothing, a verdict (severity, key, payload),
  or that the line is a verdict gone wrong. A classifier also fixes how verdicts that
  share a key combine and how the report is laid out.
-/
import CompilerFuzz.Files.Cause
import CompilerFuzz.Text.ByteOrder
import CompilerFuzz.Text.Numeral
import CompilerFuzz.Text.Quoted

namespace CompilerFuzz.Triage

open CompilerFuzz.Text

/-- How grave a verdict is. -/
inductive Severity
  | pass
  | warn
  | fail
  deriving DecidableEq, Repr

/-- The severities in the order of a report. -/
def Severity.all : List Severity := [.pass, .warn, .fail]

/-- The word a report prints for a severity. -/
def Severity.label : Severity → String
  | .pass => "pass"
  | .warn => "warn"
  | .fail => "fail"

/-- The place of a severity in the order of a report. -/
def Severity.rank : Severity → Nat
  | .pass => 0
  | .warn => 1
  | .fail => 2

/-- Severities in the order of a report. -/
def Severity.order : Severity → Severity → Ordering :=
  compareOn Severity.rank

instance : Std.TransCmp Severity.order :=
  inferInstanceAs (Std.TransCmp (compareOn Severity.rank))

instance : Std.LawfulEqCmp Severity.order where
  eq_of_compare {a b} h := by
    have hrank : a.rank = b.rank := Nat.compare_eq_eq.1 h
    cases a <;> cases b <;> first | rfl | cases hrank

/-- What orders the entries of one severity. -/
inductive SortKey
  | number (n : Nat)
  | text (s : String)
  deriving DecidableEq, Repr

namespace SortKey

/-- Numbers come before texts, numbers by value, texts by their bytes. -/
def order : SortKey → SortKey → Ordering
  | .number m, .number n => compare m n
  | .number _, .text _ => .lt
  | .text _, .number _ => .gt
  | .text a, .text b => byteOrder a b

/-- The key as a keyed report prints it. -/
def print : SortKey → String
  | .number n => numeralText n
  | .text s => s

theorem transCmp_nat : Std.TransCmp (compare : Nat → Nat → Ordering) := inferInstance

theorem lawfulEqCmp_nat : Std.LawfulEqCmp (compare : Nat → Nat → Ordering) := inferInstance

instance : Std.OrientedCmp order where
  eq_swap {a b} := by
    cases a with
    | number m =>
      cases b with
      | number n => exact (Std.OrientedCmp.eq_swap : compare m n = (compare n m).swap)
      | text t => rfl
    | text s =>
      cases b with
      | number n => rfl
      | text t => exact (Std.OrientedCmp.eq_swap : byteOrder s t = (byteOrder t s).swap)

instance : Std.TransCmp order where
  isLE_trans {a b c} h₁ h₂ := by
    cases a with
    | number l =>
      cases b with
      | number m =>
        cases c with
        | number n => exact transCmp_nat.isLE_trans h₁ h₂
        | text t => rfl
      | text s =>
        cases c with
        | number n => cases h₂
        | text t => rfl
    | text r =>
      cases b with
      | number m => cases h₁
      | text s =>
        cases c with
        | number n => cases h₂
        | text t => exact transCmp_byteOrder.isLE_trans h₁ h₂

instance : Std.LawfulEqCmp order where
  compare_self {a} := by
    cases a
    · exact lawfulEqCmp_nat.compare_self
    · exact lawfulEqCmp_byteOrder.compare_self
  eq_of_compare {a b} h := by
    cases a <;> cases b <;> simp only [order] at h
    · rw [Std.LawfulEqCmp.eq_of_compare h]
    · cases h
    · cases h
    · rw [Std.LawfulEqCmp.eq_of_compare h]

end SortKey

/-- A line recognised as a verdict. -/
structure Verdict where
  severity : Severity
  key : SortKey
  payload : String
  deriving DecidableEq, Repr

/-- How payloads under one key combine. -/
inductive Merge
  /-- Every distinct payload is kept. -/
  | accumulate
  /-- The last payload stands for all. -/
  | replace
  deriving DecidableEq, Repr

/-- How the entries of a report are printed. -/
inductive Layout
  /-- One line for each payload, without the key. -/
  | flat
  /-- One line for each key, with all its payloads. -/
  | keyed
  deriving DecidableEq, Repr

/-- Why a log could not be triaged. -/
inductive TriageError
  /-- A fail line names no construct. -/
  | malformedFailLine (line : String)
  /-- The log is there and cannot be read. -/
  | unreadable (path : String) (cause : Files.Cause)
  deriving DecidableEq, Repr

/-- The message of a triage error. -/
def TriageError.message : TriageError → String
  | .malformedFailLine line => "fail line has no construct identifier: " ++ quoted line
  | .unreadable path cause => "failed to read log file " ++ path ++ ": " ++ cause.message

/-- Tells verdicts from other lines. -/
structure Classifier where
  /-- `none` for a line that is no verdict. -/
  classify : String → Except TriageError (Option Verdict)
  merge : Severity → Merge
  layout : Layout

end CompilerFuzz.Triage
