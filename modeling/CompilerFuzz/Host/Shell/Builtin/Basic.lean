/-
  CompilerFuzz.Host.Shell.Builtin.Basic

  Commands that a shell carries out itself. Such a command answers with an exit status and
  its output, which is written when the command is done.
-/
import CompilerFuzz.Host.Options
import CompilerFuzz.Host.Shell.Expansion

namespace CompilerFuzz.Host

open CompilerFuzz.Files CompilerFuzz.Text

/-- The end of a command of the shell. -/
structure Reply where
  status : Nat
  output : Octets
  deriving DecidableEq, Repr

namespace Reply

/-- Success without output. -/
def done : Reply := ⟨0, []⟩

/-- Success with output. -/
def printed (output : Octets) : Reply := ⟨0, output⟩

/-- A silent answer to a question. -/
def answer (yes : Bool) : Reply := ⟨if yes then 0 else 1, []⟩

/-- An exit status and nothing else. -/
def silent (status : Nat) : Reply := ⟨status, []⟩

end Reply

/-- A command of the shell. -/
abbrev Builtin := List Octets → Work Reply

namespace Builtin

open Work

/-! ## Arguments -/

/-- The complaint about options. -/
def optionComplaint : Options.Fault → Octets
  | .unknown c => "Illegal option -".toList ++ [c]
  | .noValue c => "No arg for -".toList ++ c :: " option".toList

/-- Takes the options at the front of arguments, or fails. -/
def parsed (letters : String) (args : List Octets) : Work Parsed :=
  match Options.parse letters false (args.length + 1) args with
  | .ok p => return p
  | .error fault => fail (optionComplaint fault)

/-- The largest number that a command takes. -/
def largestNumber : Int := 0x7FFFFFFF

/-- The number that an argument stands for, or a failure. -/
def number (cs : Octets) : Work Nat :=
  match Number.whole? false cs with
  | some n =>
    if 0 ≤ n ∧ n ≤ largestNumber then return n.toNat else fail ("Illegal number: ".toList ++ cs)
  | none => fail ("Illegal number: ".toList ++ cs)

/-- The name and the value of an argument that may be an assignment. -/
def splitAssignment (cs : Octets) : Octets × Option Octets :=
  match cs.dropWhile (· ≠ '=') with
  | _ :: value => (cs.takeWhile (· ≠ '='), some value)
  | [] => (cs, none)

/-- Fails unless a text is the name of a variable. -/
def checkName (cs : Octets) : Work Unit := do
  if ¬ isName cs then fail (cs ++ ": bad variable name".toList)

/-- Does the name of a file have a slash? -/
def hasSlash (cs : Octets) : Bool := cs.contains '/'

end Builtin

end CompilerFuzz.Host
