/-
  CompilerFuzz.Host.Routine

  What a program does. It knows its name and its process, changes the system, and ends with an
  exit status or by a signal; one whose output nobody reads any more is ended.
-/
import CompilerFuzz.Host.Options
import CompilerFuzz.Host.Signal
import CompilerFuzz.Host.System

namespace CompilerFuzz.Host

open CompilerFuzz.Files CompilerFuzz.Text

/-- A program that runs. -/
structure Caller where
  /-- What it was called by. -/
  name : Octets
  process : Process

/-- What a program does. -/
abbrev Routine (α : Type) := ReaderT Caller (ExceptT Ending (StateM System)) α

/-- A program: from its arguments to its exit status. -/
abbrev Program := List Octets → Routine Nat

namespace Routine

/-- The name of the program. -/
def name : Routine Octets := return (← read).name

/-- The process of the program. -/
def process : Routine Process := return (← read).process

/-- Ends the program. -/
def quit {α : Type} (status : Nat) : Routine α := throw (.exit status)

/-! ## Output -/

/-- Writes to a descriptor. -/
def write (descriptor : Nat) (cs : Octets) : Routine (Option Refusal) := do
  let (system, refusal) := (← process).write descriptor cs (← get)
  set system
  if refusal = some .brokenPipe then throw (.killed Signal.brokenPipe)
  return refusal

/-- Writes a line to the error output. -/
def tell (message : Octets) : Routine Unit := do
  let _ ← write 2 (message ++ ['\n'])

/-- Complains under the name of the program. -/
def complain (message : Octets) : Routine Unit := do
  tell ((← name) ++ [':', ' '] ++ message)

/-- Complains and ends the program. -/
def fail {α : Type} (status : Nat) (message : Octets) : Routine α := do
  complain message
  quit status

/-- Writes to the standard output; the program ends if that fails. -/
def print (cs : Octets) : Routine Unit := do
  match ← write 1 cs with
  | none => return
  | some refusal => fail 1 ("write error: ".toList ++ refusal.words.toList)

/-- Complains about the use of the program and ends it. -/
def misused {α : Type} (status : Nat) (message : Octets) : Routine α := do
  complain message
  tell ("Try '".toList ++ (← name) ++ " --help' for more information.".toList)
  quit status

/-! ## Arguments -/

/-- The complaint about options. -/
def optionComplaint : Options.Fault → Octets
  | .unknown c => "invalid option -- '".toList ++ [c, '\'']
  | .noValue c => "option requires an argument -- '".toList ++ [c, '\'']

/-- Takes the options of a program from its arguments. With `anyOrder` they may come after
    operands. -/
def parsed (status : Nat) (letters : String) (anyOrder : Bool) (args : List Octets) :
    Routine Parsed :=
  match Options.parse letters anyOrder (args.length + 1) args with
  | .ok p => return p
  | .error fault => misused status (optionComplaint fault)

/-- A text in quotation marks. -/
def quoted (cs : Octets) : Octets := Octets.ofText "‘" ++ cs ++ Octets.ofText "’"

/-- A text between apostrophes. -/
def apostrophed (cs : Octets) : Octets := '\'' :: cs ++ ['\'']

/-- Does a text need no quotation? -/
def isPlain (cs : Octets) : Bool :=
  cs ≠ [] && cs.all fun c => c.isAlphanum || c.toNat ≥ 128 || c ∈ "%+,-./:=@_".toList

/-- A file's name, between apostrophes only if it has to be. -/
def named (cs : Octets) : Octets := if isPlain cs then cs else apostrophed cs

/-- The complaint about a file and a cause. -/
def aboutFile (start : String) (path : Octets) (e : Cause) : Octets :=
  start.toList ++ ' ' :: apostrophed path ++ [':', ' '] ++ causeWords e

/-! ## Files -/

/-- What a path names. -/
def status (path : Octets) : Routine (Except Cause System.Kind) := do
  return (← get).status (← process).directory path

/-- Opens a file for reading; `-` stands for the standard input. -/
def openInput (path : Octets) : Routine (Except Octets Nat) := do
  if path = ['-'] then
    match (← process).number? 0 with
    | some n => return .ok n
    | none => return .error "Bad file descriptor".toList
  else
    match (← get).openInput (← process) path with
    | .ok (n, system) =>
      set system
      return .ok n
    | .error e => return .error (causeWords e)

/-- Reads all that is left of an open file. -/
def readRest (n : Nat) : Routine (Except Octets Octets) := do
  match (← get).left n with
  | .ok cs =>
    modify fun s => s.step n cs.length
    return .ok cs
  | .error refusal => return .error refusal.words.toList

/-- Reads a file, or the standard input under the name `-`. -/
def readInput (path : Octets) : Routine (Except Octets Octets) := do
  match ← openInput path with
  | .ok n => readRest n
  | .error message => return .error message

/-- The lines of a text, each with its newline. -/
def lines (cs : Octets) : List Octets :=
  cs.foldr (fun c ls =>
    if c = '\n' then [c] :: ls
    else
      match ls with
      | [] => [[c]]
      | l :: rest => (c :: l) :: rest) []

end Routine

end CompilerFuzz.Host
