/-
  CompilerFuzz.Campaign.Progress

  The progress line: a bar of fifty cells, the percentage of the budget spent, the
  budget in seconds, the iterations done and their rate. It is a function of the
  elapsed time, the budget and the count alone.
-/
import CompilerFuzz.Span.Seconds

namespace CompilerFuzz.Campaign.Progress

open CompilerFuzz.Text

/-- Cells in the bar. -/
def barWidth : Nat := 50

/-- The part of the budget that is spent, at most one; an empty budget is spent. -/
def ratio (elapsed budget : Span) : Binary64 :=
  if budget.isZero then ⟨1, 1⟩ else (elapsed.seconds.div budget.seconds).atMostOne

/-- How many cells are filled. -/
def filled (elapsed budget : Span) : Nat :=
  -- the product is rounded, so it may fall just below a whole number of cells
  min ((Binary64.ofNat barWidth).mul (ratio elapsed budget)).floor barWidth

/-- The percentage of the budget that is spent. -/
def percent (elapsed budget : Span) : Binary64 :=
  (ratio elapsed budget).mul (Binary64.ofNat 100)

/-- Whole iterations per second; zero if no time has passed. -/
def rate (elapsed : Span) (executed : Nat) : Nat :=
  let secs := elapsed.seconds
  if secs.isPositive then min ((Binary64.ofNat executed).div secs).floor maxWord64 else 0

/-- The cells of the bar. -/
def bar (elapsed budget : Span) : List Char :=
  List.replicate (filled elapsed budget) '█'
    ++ List.replicate (barWidth - filled elapsed budget) '-'

/-- The progress line. -/
def line (elapsed budget : Span) (executed : Nat) : String :=
  " Progress: |" ++ String.ofList (bar elapsed budget) ++ "| "
    ++ (percent elapsed budget).fixedText 2 ++ "% (L: " ++ numeralText budget.secs ++ "s; E: "
    ++ numeralText executed ++ "; T: " ++ numeralText (rate elapsed executed) ++ "/s)"

end CompilerFuzz.Campaign.Progress
