/-
  CompilerFuzz.Campaign.Lifecycle

  The states of a campaign. It runs at most once, and a finished campaign stays in the
  state it finished in.
-/
import CompilerFuzz.Campaign.Tool

namespace CompilerFuzz.Campaign

/-- The state of a campaign. -/
inductive Lifecycle
  | idle
  | running
  /-- The budget is spent, or a stop was asked for. -/
  | completed
  /-- An error ended it. -/
  | aborted
  deriving DecidableEq, Repr

namespace Lifecycle

/-- The name of a state. -/
def print : Lifecycle → String
  | .idle => "IDLE"
  | .running => "RUNNING"
  | .completed => "COMPLETED"
  | .aborted => "ABORTED"

/-- All states. -/
def all : List Lifecycle := [.idle, .running, .completed, .aborted]

/-- The state with a given name. -/
def ofName? (name : String) : Option Lifecycle :=
  all.find? fun s => s.print == name

/-- May a campaign move from one state to another? -/
def canMove : Lifecycle → Lifecycle → Bool
  | .idle, .running | .running, .completed | .running, .aborted => true
  | _, _ => false

/-- Moves to another state, if that is allowed. -/
def move (source target : Lifecycle) : Except CampaignError Lifecycle :=
  if canMove source target then .ok target
  else .error (.invalidTransition source.print target.print)

/-- Has the campaign finished? -/
def isTerminal : Lifecycle → Bool
  | .completed | .aborted => true
  | .idle | .running => false

end Lifecycle

end CompilerFuzz.Campaign
