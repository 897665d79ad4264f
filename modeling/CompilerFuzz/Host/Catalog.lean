/-
  CompilerFuzz.Host.Catalog

  The programs of the host by name, and its answer to a call of one of them: whether there is
  one, and how it ends. A shell runs commands, commands run programs, and some programs run
  others. Each step inside another one has less fuel, so all of them end; a command nested too
  deep ends its shell as too deep a recursion does. A called program starts with nothing to
  read, in the working directory, and alone.
-/
import CompilerFuzz.Campaign.Environment
import CompilerFuzz.Host.Shell.Start
import CompilerFuzz.Host.Utility.Filing
import CompilerFuzz.Host.Utility.Streams

namespace CompilerFuzz.Host

open CompilerFuzz.Campaign CompilerFuzz.Files CompilerFuzz.Text

/-! ## Programs -/

/-- The programs that need no other one. -/
def utilities : List (String × Program) :=
  [ ("true", Utility.succeed), ("false", Utility.refuse), ("echo", Utility.echo),
    ("printf", Utility.printf), ("test", Utility.test), ("[", Utility.bracket),
    ("sleep", Utility.sleep), ("cat", Utility.cat), ("head", Utility.head),
    ("tail", Utility.tail), ("wc", Utility.wc), ("tr", Utility.tr), ("seq", Utility.seq),
    ("yes", Utility.yes), ("mkdir", Utility.mkdir), ("touch", Utility.touch),
    ("cp", Utility.cp), ("mv", Utility.mv), ("ls", Utility.ls), ("rm", Utility.rm) ]

/-- Variables with one of them given a value. -/
def withVariable (environment : List (Octets × Octets)) (v : Octets × Octets) :
    List (Octets × Octets) :=
  environment.filter (fun e => e.1 ≠ v.1) ++ [v]

/-- Runs a program with other variables, or shows them. -/
def env (run : String → Program) : Program := fun args => do
  let p ← Routine.parsed 125 "iu:" false args
  let caller ← read
  let dropped := (p.options.filter fun o => o.1 = 'u').map Prod.snd
  let kept := if p.has 'i' then []
    else caller.process.environment.filter fun e => !dropped.contains e.1
  let given := p.operands.takeWhile (List.contains · '=')
  let environment := (given.map fun a =>
    (a.takeWhile (· ≠ '='), (a.dropWhile (· ≠ '=')).drop 1)).foldl withVariable kept
  match p.operands.drop given.length with
  | [] =>
    Routine.print (environment.flatMap fun e => e.1 ++ '=' :: e.2 ++ ['\n'])
    return 0
  | name :: args =>
    let path := (environment.lookup "PATH".toList).getD "/bin:/usr/bin".toList
    match findProgram (← get) caller.process.directory path name with
    | .ok program =>
      withReader (fun c => ⟨name, { c.process with environment := environment }⟩) (run program args)
    | .error cause =>
      Routine.complain (Routine.quoted name ++ [':', ' '] ++ causeWords cause)
      return Work.launchStatus cause

/-- The program of a name; one that is not known does nothing, without success. -/
def programOf (e : Engine) (name : String) : Program :=
  if name ∈ ["sh", "dash", "bash"] then Start.shell e
  else if name = "env" then env e.program
  else (utilities.lookup name).getD Utility.refuse

/-- The signal that ends a shell whose commands are nested too deep. -/
def tooDeep : Nat := 11

mutual

/-- Runs a command. -/
def runCommand : (fuel : Nat) → Command → (tested : Bool) → Work Nat
  | 0, _, _ => throw (.killed tooDeep)
  | fuel + 1, c, tested => Work.performWhole ⟨runCommand fuel, runProgram fuel⟩ c tested

/-- Runs a program. -/
def runProgram : (fuel : Nat) → (name : String) → Program
  | 0, _ => fun _ => throw (.killed tooDeep)
  | fuel + 1, name => programOf ⟨runCommand fuel, runProgram fuel⟩ name

end

/-- How deep commands may be nested. -/
def depthLimit : Nat := 1000

/-! ## Calls -/

/-- The variables that a program gets. -/
def startEnvironment : List (Octets × Octets) :=
  [ ("PATH".toList, "/usr/local/sbin:/usr/local/bin:/usr/sbin:/usr/bin:/sbin:/bin".toList),
    ("HOME".toList, "/root".toList) ]

/-- Finds a program by its path if the name has a slash, and among the programs otherwise. -/
def find (files : Tree) (name : Path) : Except Cause String :=
  if Tree.maxName < (bytesOf name).length ∧ '/' ∉ name.toList then .error .nameTooLong
  else if name = "." ∨ name = ".." then .error .permissionDenied
  else
    findProgram (System.idle files) Location.home
      ((startEnvironment.lookup "PATH".toList).getD []) (Octets.ofText name)

/-- Runs a program to its end. The answer holds its ending, what it has written where that is
    kept, and the files. -/
def runToEnd (files : Tree) (call : Invocation) (program : String) : Exit × Tree :=
  let s := System.idle files
  let (input, s) := s.add (.device .null)
  let (errors, s) := s.add (.sink [] 0 none)
  let start : Process := ⟨[(0, input), (2, errors)], Location.home, startEnvironment, [],
    System.firstProcess⟩
  let (output, s) := match call.output with
    | .capture => s.add (.sink [] 0 none)
    | .discard => s.add (.device .null)
    | .file target =>
      match s.openOutput start (Octets.ofText target) false false true with
      | .ok r => r
      | .error _ => s.add (.device .null)
  let process : Process := { start with descriptors := (1, output) :: start.descriptors }
  let task := runProgram depthLimit program (call.args.map Octets.ofText)
  let (result, s) := (task.run ⟨Octets.ofText call.program, process⟩).run
    { s with living := [start.number] }
  let status : Option Nat := match result with
    | .ok status | .error (.exit status) => some (status % 256)
    | .error (.killed _) => none
  (⟨status, (s.taken output).toBytes, (s.taken errors).toBytes⟩, s.files)

/-- The host's answer to a call. -/
def respond (files : Tree) (call : Invocation) : Response :=
  match withArguments (call.args.map Octets.ofText) (find files call.program) with
  | .error e => .cannotStart e
  | .ok program =>
    let (exit, files) := runToEnd files call program
    .ran exit fun _ => files

end CompilerFuzz.Host
