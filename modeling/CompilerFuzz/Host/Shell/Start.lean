/-
  CompilerFuzz.Host.Shell.Start

  How a shell starts as a program. Its options come first; then it takes its script from an
  argument after `-c`, from a file, or from its standard input.
-/
import CompilerFuzz.Host.Shell.Run

namespace CompilerFuzz.Host

open CompilerFuzz.Files

/-- What the arguments of a shell come to. -/
structure Start where
  options : List Char
  /-- Does the script stand in the first operand? -/
  inArgument : Bool
  operands : List Octets

namespace Start

/-- Reads the options at the front of the arguments. The fuel is more than the number of the
    arguments. -/
def readOptions : (fuel : Nat) → List Octets → Start → Except Octets Start
  | 0, _, start => .ok start
  | fuel + 1, args, start =>
    match args with
    | ['-', '-'] :: rest => .ok { start with operands := rest }
    | (sign :: c :: cs) :: rest =>
      if sign = '-' ∨ sign = '+' then
        let letters := (c :: cs).filter (· ≠ 'c')
        match Builtin.setLetters (sign = '-') letters rest start.options with
        | .error message => .error message
        | .ok (options, rest) =>
          readOptions fuel rest ⟨options, start.inArgument || (c :: cs).contains 'c', rest⟩
      else .ok { start with operands := args }
    | args => .ok { start with operands := args }

/-- The complaint of a shell that has not begun. -/
def refused (message : Octets) : Routine Nat := do
  Routine.complain ("0: ".toList ++ message)
  return Work.errorStatus

/-- Runs a script in a shell to its end. -/
def live (e : Engine) (name : Octets) (operands : List Octets) (options : List Char)
    (script : Octets) : Routine Nat := do
  let st := State.started name operands options (← Routine.process) (← get)
  let (result, st) := (Work.toEnd e (Work.runText e false script)).run st
  set st.system
  match result with
  | .ok (.exit status) => return status
  | .ok (.killed n) | .error (.killed n) => throw (.killed n)
  | .error _ => return st.status % 256

/-- Runs the shell as a program. -/
def shell (e : Engine) : Program := fun args => do
  let called ← Routine.name
  match readOptions (args.length + 1) args ⟨[], false, []⟩ with
  | .error message => refused message
  | .ok ⟨options, true, script :: operands⟩ =>
    live e (operands.headD called) (operands.drop 1) options script
  | .ok ⟨_, true, []⟩ => refused "-c requires an argument".toList
  | .ok ⟨options, false, path :: operands⟩ =>
    match (← get).readFile (← Routine.process).directory path with
    | .error cause => refused (Work.openingComplaint .input path cause)
    | .ok script => live e path operands options script
  | .ok ⟨options, false, []⟩ =>
    let script := (← Routine.readInput ['-']).toOption.getD []
    live e called [] options script

end Start

end CompilerFuzz.Host
