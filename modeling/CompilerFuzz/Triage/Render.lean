/-
  CompilerFuzz.Triage.Render

  A report as text: pass, warn and fail entries in turn, each line opened by its
  severity in brackets. Colour touches the word in the brackets and nothing else.
-/
import CompilerFuzz.Triage.Report

namespace CompilerFuzz.Triage

/-- Whether the severity words carry terminal colours. -/
inductive ColorMode
  | ansi
  | plain
  deriving DecidableEq, Repr

/-- The terminal colour of a severity, as its bold attribute code. -/
def Severity.color : Severity → String
  | .pass => "1;32"
  | .warn => "1;33"
  | .fail => "1;31"

/-- The word in the brackets. -/
def ColorMode.label (mode : ColorMode) (s : Severity) : String :=
  match mode with
  | .plain => s.label
  | .ansi => "\x1b[" ++ s.color ++ "m" ++ s.label ++ "\x1b[0m"

namespace Report

/-- One printed line. -/
def printedLine (mode : ColorMode) (s : Severity) (body : String) : String :=
  "[" ++ mode.label s ++ "] " ++ body ++ "\n"

/-- The lines of one entry. -/
def entryLines (mode : ColorMode) (layout : Layout) (s : Severity) (entry : SortKey × Payloads) :
    List String :=
  match layout with
  | .flat => entry.2.map (printedLine mode s)
  | .keyed => [printedLine mode s (entry.1.print ++ ": " ++ String.intercalate ", " entry.2)]

/-- All lines of a report. -/
def printedLines (mode : ColorMode) (r : Report) : List String :=
  Severity.all.flatMap fun s => (r.entries s).flatMap (entryLines mode r.layout s)

/-- The text of a report. -/
def render (mode : ColorMode) (r : Report) : String :=
  String.join (r.printedLines mode)

end Report

end CompilerFuzz.Triage
