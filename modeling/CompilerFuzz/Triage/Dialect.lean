/-
  CompilerFuzz.Triage.Dialect

  The dialects of logs, and the triage of a log file. A log that is not there is an empty
  log; one that is there must be readable text.
-/
import CompilerFuzz.Files.Tree
import CompilerFuzz.Triage.Checker
import CompilerFuzz.Triage.Report
import CompilerFuzz.Triage.Tagged

namespace CompilerFuzz.Triage

open CompilerFuzz.Files

/-- The dialects of logs. -/
inductive Dialect
  | tagged
  | checker
  deriving DecidableEq, Repr

/-- What tells verdicts in a dialect. -/
def Dialect.classifier : Dialect → Classifier
  | .tagged => Tagged.classifier
  | .checker => Checker.classifier

/-- The lines of a log file. -/
def LogLines.ofFile (files : Tree) (path : Path) : Except TriageError LogLines :=
  match files.readText path with
  | .ok text => .ok (ofText text)
  | .error .noSuchFile => .ok empty
  | .error cause => .error (.unreadable path cause)

/-- The report of a log file. -/
def Report.ofFile (dialect : Dialect) (files : Tree) (path : Path) : Except TriageError Report :=
  match LogLines.ofFile files path with
  | .error e => .error e
  | .ok log => build dialect.classifier log

end CompilerFuzz.Triage
