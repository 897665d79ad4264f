/-
  CompilerFuzz.Campaign.History

  What happens between a campaign and the world around it, as a list of events from the
  first to the last: tools called, clock readings, looks at the stop flag, progress
  shown. Everything that a campaign does or learns is in its history, the changes to
  files apart.
-/
import CompilerFuzz.Campaign.Tool
import CompilerFuzz.Files.Tree
import CompilerFuzz.Span.Basic

namespace CompilerFuzz.Campaign

open CompilerFuzz.Files

/-- What became of an attempt to call a tool. -/
inductive CallResult
  /-- The file for its output could not be made, so nothing was started. -/
  | noOutput (cause : Cause)
  | notStarted (cause : Cause)
  | ended (exit : Exit)
  deriving DecidableEq, Repr

/-- One event. -/
inductive Event
  /-- A tool was called, with the files as it found them. -/
  | call (invocation : Invocation) (files : Tree) (result : CallResult)
  /-- The clock was read. -/
  | reading (elapsed : Span)
  /-- The stop flag was looked at. -/
  | stopCheck (requested : Bool)
  /-- The progress was shown. -/
  | update (elapsed : Span) (executed : Nat)
  /-- The progress was shown for the last time. -/
  | finish (elapsed : Span) (executed : Nat)
  deriving DecidableEq, Repr

/-- The events so far, oldest first. -/
abbrev History := List Event

/-- The files, and what has happened. -/
structure World where
  files : Tree
  history : History
  deriving DecidableEq, Repr

/-- The world after one more event. -/
def World.log (w : World) (e : Event) : World :=
  { w with history := w.history ++ [e] }

/-- The world with other files. -/
def World.withFiles (w : World) (files : Tree) : World :=
  { w with files := files }

end CompilerFuzz.Campaign
