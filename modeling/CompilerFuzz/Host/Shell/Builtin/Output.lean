/-
  CompilerFuzz.Host.Shell.Builtin.Output

  The commands of the shell that print texts, answer questions, or change the directory.
-/
import CompilerFuzz.Host.Format
import CompilerFuzz.Host.Shell.Builtin.Basic
import CompilerFuzz.Host.Test

namespace CompilerFuzz.Host.Builtin

open Work

/-- Texts with blanks between them. -/
def joined (args : List Octets) : Octets := [' '].intercalate args

/-- Prints its arguments with escapes resolved. -/
def echo : Builtin := fun args => do
  let (newline, args) := match args with
    | ['-', 'n'] :: args => (false, args)
    | args => (true, args)
  let text := joined args
  let r := Format.resolve text.length text
  return .printed (r.1 ++ if newline && r.2 then ['\n'] else [])

/-- Prints by a format. -/
def printf : Builtin := fun args => do
  let p ← parsed "" args
  match p.operands with
  | [] => fail "usage: printf format [arg ...]".toList
  | format :: args =>
    let printed := Format.run format args
    printed.complaints.reverse.forM complain
    return ⟨printed.status, printed.output⟩

/-- Answers a question. -/
def test : Builtin := fun args => do
  let st ← get
  match Test.evaluate (Test.factsOf st.system st.process.directory) args with
  | .ok b => return .answer b
  | .error message => fail message

/-- Answers a question between brackets. -/
def bracket : Builtin := fun args => do
  if args.getLast? = some [']'] then test args.dropLast else fail "missing ]".toList

/-- Changes the directory. -/
def changeDirectory : Builtin := fun args => do
  let target ← match args with
    | [] => valueOf "HOME"
    | d :: _ => pure d
  let st ← get
  match st.system.status st.process.directory (if target = [] then ['.'] else target) with
  | .ok (.directory l) =>
    modifyProcess fun p => { p with directory := l }
    return .done
  | _ => fail ("can't cd to ".toList ++ target)

end CompilerFuzz.Host.Builtin
