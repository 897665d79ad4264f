/-
  CompilerFuzz.Host.Shell.State

  The state of a running shell: its variables, functions, options and traps, the process that
  it is, and the system that it shares with others. A piece of work in a shell changes the
  state; it may also end the shell.
-/
import CompilerFuzz.Host.Number
import CompilerFuzz.Host.Shell.Cursor
import CompilerFuzz.Host.Signal

namespace CompilerFuzz.Host

open CompilerFuzz.Files CompilerFuzz.Text

/-! ## A shell -/

/-- A variable. -/
structure Variable where
  name : Octets
  value : Option Octets
  exported : Bool
  fixed : Bool
  deriving DecidableEq, Repr

/-- What commands are left out until a loop, a function or a script ends. -/
inductive Skip
  | none
  /-- Leaves loops. -/
  | breaks (loops : Nat)
  /-- Goes on with the next round of a loop. -/
  | continues (loops : Nat)
  /-- Leaves a function or a script. -/
  | returns
  deriving DecidableEq, Repr

/-- The state of a shell and of what is around it. -/
structure State where
  /-- What the shell is called in its complaints. -/
  name : Octets
  operands : List Octets
  bindings : List Variable
  functions : List (Octets × Command)
  /-- What variables were before they became local, by function, the latest first. -/
  hidden : List (List (Octets × Option Variable))
  options : List Char
  /-- The actions for signals; zero stands for the end of the shell. -/
  traps : List (Nat × Octets)
  /-- The exit status of the last command. -/
  status : Nat
  /-- The exit status of the last script whose output was taken in this command. -/
  taken : Nat
  skip : Skip
  /-- How many loops are running. -/
  loops : Nat
  /-- How many functions are running. -/
  calls : Nat
  /-- The status before the action of a trap. -/
  beforeTrap : Option Nat
  /-- The command that complaints name. -/
  label : Option Octets
  /-- The line of the command that runs. -/
  line : Nat
  /-- The number of the shell itself, also in its subshells. -/
  leader : Nat
  /-- The processes that ran in the background, the latest first, and how they ended. -/
  ended : List (Nat × Ending)
  documents : Documents
  process : Process
  system : System

/-- Why a shell stops. -/
inductive Stop
  /-- It ends with its current status. -/
  | exit
  /-- It ends because of an error, unless a command takes care of that. -/
  | error
  | killed (signal : Nat)
  deriving DecidableEq, Repr

/-- A piece of work in a shell. -/
abbrev Work (α : Type) := ExceptT Stop (StateM State) α

namespace Work

/-! ## Output and complaints -/

/-- Writes to a descriptor. A broken pipe ends the shell. -/
def write (descriptor : Nat) (cs : Octets) : Work (Option Refusal) := do
  let st ← get
  let (system, refusal) := st.process.write descriptor cs st.system
  set { st with system := system }
  if refusal = some .brokenPipe then throw (.killed Signal.brokenPipe)
  return refusal

/-- Writes a line to the error output. -/
def tell (message : Octets) : Work Unit := do
  let _ ← write 2 (message ++ ['\n'])

/-- Complains under the name of the shell. -/
def complain (message : Octets) : Work Unit := do
  let st ← get
  let about := match st.label with
    | some label => label ++ [':', ' ']
    | none => []
  tell (st.name ++ [':', ' '] ++ numeral st.line ++ [':', ' '] ++ about ++ message)

/-- Sets the exit status. -/
def setStatus (status : Nat) : Work Unit := modify fun st => { st with status := status }

/-- The exit status of errors. -/
def errorStatus : Nat := 2

/-- Complains and stops because of an error. -/
def fail {α : Type} (message : Octets) : Work α := do
  complain message
  setStatus errorStatus
  throw .error

/-! ## Options -/

/-- Is an option set? -/
def hasOption (c : Char) : Work Bool := return (← get).options.contains c

/-! ## Variables -/

/-- The variable of a name. -/
def binding? (name : Octets) : Work (Option Variable) :=
  return (← get).bindings.find? fun v => v.name = name

/-- The value of a variable, if it has one. -/
def value? (name : Octets) : Work (Option Octets) :=
  return ((← get).bindings.find? fun v => v.name = name).bind Variable.value

/-- The value of a variable by its name as a text; empty if it has none. -/
def valueOf (name : String) : Work Octets := return (← value? name.toList).getD []

/-- Puts a variable in the place of the one of its name. -/
def putVariable (v : Variable) : Work Unit :=
  modify fun st => { st with bindings := v :: st.bindings.filter fun w => w.name ≠ v.name }

/-- Removes a variable. -/
def dropVariable (name : Octets) : Work Unit :=
  modify fun st => { st with bindings := st.bindings.filter fun w => w.name ≠ name }

/-- Changes a variable, if it may be changed. -/
def change (name : Octets) (f : Variable → Variable) : Work Unit := do
  let v := (← binding? name).getD ⟨name, none, false, false⟩
  if v.fixed then fail (name ++ ": is read only".toList) else putVariable (f v)

/-- Gives a variable a value. -/
def assign (name value : Octets) : Work Unit :=
  change name fun v => { v with value := some value }

/-- Gives a variable a value and exports it. -/
def assignExported (name value : Octets) : Work Unit :=
  change name fun v => { v with value := some value, exported := true }

/-- Keeps what a variable is for the end of the innermost function or command. -/
def hide (name : Octets) : Work Unit := do
  let v ← binding? name
  modify fun st =>
    match st.hidden with
    | frame :: rest =>
      if frame.any fun e => e.1 = name then st
      else { st with hidden := ((name, v) :: frame) :: rest }
    | [] => st

/-- Makes room for variables that become local. -/
def openFrame : Work Unit := modify fun st => { st with hidden := [] :: st.hidden }

/-- Gives the variables that became local what they were before. -/
def closeFrame : Work Unit :=
  modify fun st =>
    match st.hidden with
    | frame :: rest =>
      let names := frame.map Prod.fst
      { st with
        hidden := rest
        bindings := frame.filterMap Prod.snd ++ st.bindings.filter fun v => !names.contains v.name }
    | [] => st

/-- Runs a piece of work in which variables may become local. -/
def framed {α : Type} (w : Work α) : Work α := do
  openFrame
  let depth := (← get).hidden.length
  let finish : Work Unit := do
    modify fun st => { st with hidden := st.hidden.drop (st.hidden.length - depth) }
    closeFrame
  try
    let a ← w
    finish
    return a
  catch e =>
    finish
    throw e

/-- The variables that programs get. -/
def environment : Work (List (Octets × Octets)) :=
  return (← get).bindings.filterMap fun v =>
    if v.exported then v.value.map (v.name, ·) else none

/-! ## Processes -/

/-- Changes what the process of the shell has. -/
def modifyProcess (f : Process → Process) : Work Unit :=
  modify fun st => { st with process := f st.process }

/-- Changes the system. -/
def modifySystem (f : System → System) : Work Unit :=
  modify fun st => { st with system := f st.system }

/-- The number of a new process. -/
def newProcess : Work Nat := do
  let st ← get
  let n := st.system.processes + 1
  set { st with system := { st.system with processes := n } }
  return n

/-- Adds an open file to the system. -/
def opened (f : OpenFile) : Work Nat := do
  let st ← get
  let (n, system) := st.system.add f
  set { st with system := system }
  return n

end Work

/-! ## The first state -/

/-- The variables of a shell that starts, besides those that it is given. -/
def Variable.initial : List Variable :=
  [ ⟨"IFS".toList, some [' ', '\t', '\n'], false, false⟩,
    ⟨"PATH".toList, some "/usr/local/sbin:/usr/local/bin:/usr/sbin:/usr/bin:/sbin:/bin".toList,
      false, false⟩,
    ⟨"PS4".toList, some "+ ".toList, false, false⟩ ]

/-- The variables of a shell that starts in an environment. -/
def Variable.ofEnvironment (environment : List (Octets × Octets)) : List Variable :=
  let given := environment.filter fun e => isName e.1 ∧ e.1 ≠ "IFS".toList
  let names := given.map Prod.fst
  given.map (fun e => ⟨e.1, some e.2, true, false⟩)
    ++ initial.filter fun v => !names.contains v.name

/-- A shell that starts as a process. -/
def State.started (name : Octets) (operands : List Octets) (options : List Char) (p : Process)
    (s : System) : State where
  name := name
  operands := operands
  bindings := Variable.ofEnvironment p.environment
  functions := []
  hidden := []
  options := options
  traps := []
  status := 0
  taken := 0
  skip := .none
  loops := 0
  calls := 0
  beforeTrap := none
  label := none
  line := 1
  leader := p.number
  ended := []
  documents := Documents.none
  process := p
  system := s

end CompilerFuzz.Host
