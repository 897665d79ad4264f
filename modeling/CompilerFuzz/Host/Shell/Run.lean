/-
  CompilerFuzz.Host.Shell.Run

  How commands run. What a construct does with the commands inside it is told with an engine
  that runs those. Scripts run line by line. A subshell, a stage of a pipeline and a script
  whose output is taken run as shells of their own, which share nothing with the first one but
  the system.
-/
import CompilerFuzz.Host.Launch
import CompilerFuzz.Host.Routine
import CompilerFuzz.Host.Shell.Builtin.Control
import CompilerFuzz.Host.Shell.Builtin.Output
import CompilerFuzz.Host.Shell.Builtin.Variables
import CompilerFuzz.Host.Shell.Parser
import CompilerFuzz.Host.Shell.Redirect

namespace CompilerFuzz.Host

open CompilerFuzz.Files CompilerFuzz.Text

/-- What runs commands and programs. -/
structure Engine where
  /-- Runs a command. With `tested` its failure is looked at. -/
  command : Command → (tested : Bool) → Work Nat
  program : String → Program

namespace Work

/-! ## Scripts -/

/-- Runs the lines of a script. The fuel is more than their number. -/
def runLines (e : Engine) (tested : Bool) : (fuel : Nat) → Cursor → (status : Nat) → Work Nat
  | 0, _, status => return status
  | fuel + 1, c, status => do
    match c.readLine with
    | .error fault =>
      modify fun st => { st with line := fault.line }
      fail fault.message
    | .ok (command, c) =>
      modify fun st => { st with documents := c.documents }
      let status ← match command with
        | some command => e.command command tested
        | none => pure status
      let st ← get
      if st.skip ≠ .none ∨ c.atEnd then return status
      else runLines e tested fuel { c with documents := st.documents } status

/-- Runs a script. -/
def runText (e : Engine) (tested : Bool) (script : Octets) : Work Nat := do
  let c := Cursor.start script 1 (← get).documents
  runLines e tested c.limit c 0

/-! ## Signals -/

/-- Runs the action of a trap. The exit status stays. -/
def runAction (e : Engine) (action : Octets) : Work Unit := do
  let before := (← get).status
  let outer := (← get).beforeTrap
  modify fun st => { st with beforeTrap := some before }
  let _ ← runText e false action
  modify fun st => { st with beforeTrap := outer, status := before }

/-- Takes the signals that were sent to this shell. The fuel bounds their number. -/
def takeSignals (e : Engine) : (fuel : Nat) → Work Unit
  | 0 => return
  | fuel + 1 => do
    let st ← get
    match st.system.take? st.process.number with
    | none => return
    | some (n, system) =>
      set { st with system := system }
      match st.traps.lookup n with
      -- an action does not run for a signal that cannot be caught, and an empty one ignores it
      | some action =>
        if Signal.uncatchable.contains n then
          if Signal.isFatal n then throw (.killed n)
        else if action ≠ [] then runAction e action
      | none =>
        if Signal.isFatal n ∧ (Signal.uncatchable.contains n ∨ ¬ st.process.ignored.contains n) then
          throw (.killed n)
      takeSignals e fuel

/-- How many signals are taken at once. -/
def signalLimit : Nat := 100

/-! ## Shells of their own -/

/-- Runs the action for the end of the shell, and tells its exit status. -/
def conclude (e : Engine) : Work Ending := do
  let st ← get
  match st.traps.lookup 0 with
  | none => return .exit (st.status % 256)
  | some action =>
    let before := st.status
    set { st with
      -- the action runs once, even if it ends the shell again
      traps := st.traps.filter fun t => t.1 ≠ 0
      beforeTrap := some before
      skip := .none
      label := none }
    try
      let _ ← runText e false action
      return .exit (before % 256)
    catch
      | .exit | .error => return .exit ((← get).status % 256)
      | .killed n => return .killed n

/-- Runs a shell to its end. -/
def toEnd (e : Engine) (w : Work Nat) : Work Ending := do
  try
    setStatus (← w)
    conclude e
  catch
    | .exit | .error => conclude e
    | .killed n => return .killed n

/-- Runs a copy of this shell as a process of its own. It keeps only the signals that are
    ignored. -/
def asChild (e : Engine) (w : Work Nat) : Work Ending := do
  let number ← newProcess
  let outer ← get
  -- what the child does to its state is lost, what it does to the system is not
  let inner : State := { outer with
    traps := outer.traps.filter fun t => t.2 = [] && t.1 ≠ 0
    skip := .none
    process := { outer.process with number := number }
    ended := []
    system := { outer.system with living := number :: outer.system.living } }
  let (result, inner) := (toEnd e w).run inner
  set { outer with
    system := { inner.system with living := inner.system.living.filter (· ≠ number) } }
  match result with
  | .ok ending => return ending
  | .error (.killed n) => return .killed n
  | .error _ => return .exit (inner.status % 256)

/-- Tells of a process that a signal has ended. -/
def announce : Ending → Work Unit
  | .exit _ => return
  | .killed n => do
    if n ≠ Signal.interrupt ∧ n ≠ Signal.brokenPipe then tell (Signal.words n).toList

/-- Waits for processes, which have all ended. -/
def waitFor : Builtin := fun args => do
  let statuses ← args.mapM fun arg => do
    match (← get).ended.lookup (← Builtin.number arg) with
    | some ending => return ending.status
    | none => return 127
  return .silent (statuses.getLast?.getD 0)

/-! ## Output of scripts -/

/-- Takes the output of a script, without newlines at its end. -/
def outputOf (e : Engine) (script : Command) : Work Octets := do
  let n ← opened (.sink [] 0 none)
  let ending ← asChild e do
    connect 1 n
    e.command (.final script) false
  announce ending
  modify fun st => { st with taken := ending.status }
  let cs := (← get).system.taken n
  return ((cs.filter (· ≠ '\x00')).reverse.dropWhile (· == '\n')).reverse

/-! ## Programs -/

/-- The words for a cause why a program cannot run. -/
def launchWords (e : Cause) : Octets := wordsFor "not found" e

/-- The exit status for a cause why a program cannot run. -/
def launchStatus : Cause → Nat
  | .noSuchFile | .notADirectory | .nameTooLong => 127
  | _ => 126

/-- Runs a program as a process. -/
def asProgram (number : Nat) (called : Octets) (task : Routine Nat) : Work Ending := do
  let st ← get
  let environment ← environment
  let ignored := (st.traps.filter fun t => t.2 = []).map Prod.fst
  let process : Process :=
    { st.process with
      environment := environment
      ignored := st.process.ignored ++ ignored
      number := number }
  let system := { st.system with living := number :: st.system.living }
  let (result, system) := (task.run ⟨called, process⟩).run system
  set { st with system := { system with living := system.living.filter (· ≠ number) } }
  match result with
  | .ok status => return .exit (status % 256)
  | .error ending => return ending

/-- Finds a program by its name, to call it with some arguments. -/
def programFor (name : Octets) (args : List Octets) : Work (Except Cause String) := do
  let st ← get
  return withArguments args (findProgram st.system st.process.directory (← valueOf "PATH") name)

/-- Calls a program. -/
def callProgram (e : Engine) (name : Octets) (args : List Octets) : Work Nat := do
  -- the empty name leads to a directory, which is no program
  if name = [] then
    complain ": Permission denied".toList
    return 127
  else
    match ← programFor name args with
    | .error cause =>
      complain (name ++ [':', ' '] ++ launchWords cause)
      return launchStatus cause
    | .ok program =>
      let ending ← asProgram (← newProcess) name (e.program program args)
      announce ending
      return ending.status

/-- Runs a program in the place of the shell. -/
def giveWay {α : Type} (called : Octets) (task : Routine Nat) : Work α := do
  let ending ← asProgram (← get).process.number called task
  modify fun st => { st with traps := [] }
  match ending with
  | .exit status =>
    setStatus status
    throw .exit
  | .killed n => throw (.killed n)

/-- Puts a program in the place of the shell. -/
def replaceShell (e : Engine) (name : Octets) (args : List Octets) : Work Reply := do
  match ← programFor name args with
  | .error cause =>
    complain (name ++ [':', ' '] ++ launchWords cause)
    setStatus (launchStatus cause)
    throw .exit
  | .ok program => giveWay name (e.program program args)

/-- Calls a program as the last command of the shell; it takes the place of the shell unless
    that has something to do at its end. -/
def callLast (e : Engine) (name : Octets) (args : List Octets) : Work Nat := do
  let st ← get
  match ← programFor name args with
  | .ok program =>
    -- a shell with an action for its end must outlive the program
    if st.traps.any fun t => t.2 ≠ [] then callProgram e name args
    else giveWay name (e.program program args)
  | .error _ => callProgram e name args

/-! ## Commands of the shell that run others -/

/-- Runs its arguments as a script. -/
def evaluate (e : Engine) (tested : Bool) : Builtin := fun args => do
  return .silent (← runText e tested (Builtin.joined args))

/-- Runs a script in this shell. -/
def includeScript (e : Engine) (tested : Bool) : Builtin := fun args => do
  match args with
  | [] => return .done
  | path :: _ =>
    let st ← get
    if ¬ Builtin.hasSlash path then fail (path ++ ": not found".toList)
    match st.system.readFile st.process.directory path with
    | .error cause => fail (openingComplaint .input path cause)
    | .ok script =>
      modify fun st => { st with label := some path }
      let status ← runText e tested script
      modify fun st => { st with skip := if st.skip = .returns then .none else st.skip }
      return .silent status

/-- The commands of the shell by name. -/
def builtins (e : Engine) (tested : Bool) : List (String × Builtin) :=
  [ (":", Builtin.succeed), ("true", Builtin.succeed), ("false", Builtin.refuse),
    (".", includeScript e tested), ("eval", evaluate e tested), ("exit", Builtin.exit),
    ("return", Builtin.leave), ("break", Builtin.skipLoops .breaks),
    ("continue", Builtin.skipLoops .continues), ("shift", Builtin.shift),
    ("set", Builtin.setAll), ("trap", Builtin.trap), ("export", Builtin.exportAll),
    ("readonly", Builtin.fixAll), ("local", Builtin.makeLocal), ("unset", Builtin.unset),
    ("read", Builtin.readFields), ("cd", Builtin.changeDirectory), ("kill", Builtin.kill),
    ("wait", waitFor), ("echo", Builtin.echo), ("printf", Builtin.printf),
    ("test", Builtin.test), ("[", Builtin.bracket) ]

/-! ## Simple commands -/

/-- What a simple command calls. -/
inductive Callee
  | nothing
  | builtin (name : Octets) (b : Builtin) (args : List Octets)
  /-- The shell itself gives way to a program, or keeps the redirections if there is none. -/
  | replacement (args : List Octets)
  | function (body : Command) (args : List Octets)
  | program (name : Octets) (args : List Octets)

/-- Is this a command that cannot be replaced and whose errors end the shell? -/
def isSpecialName (name : Octets) : Bool := String.ofList name ∈ Parser.specialNames

/-- Is this a command whose arguments may be assignments? -/
def takesAssignments (name : Octets) : Bool :=
  String.ofList name ∈ ["export", "readonly", "local"]

/-- Expands the words of a command. -/
def expandArguments (sub : Command → Work Octets) : List Octets → List Word → Work (List Octets)
  | before, [] => return before
  | before, w :: ws => do
    -- `export x=$y` assigns one text, anywhere else `$y` may give several fields
    let more ← match takesAssignments (before.headD []), Parser.assignment? w with
      | true, some (name, value) => do pure [name ++ '=' :: (← wholeText sub value)]
      | _, _ => fields sub w
    expandArguments sub (before ++ more) ws

/-- What fields call. -/
def calleeOf (e : Engine) (tested : Bool) (fields : List Octets) : Work Callee := do
  match fields with
  | [] => return .nothing
  | name :: args =>
    if name = "exec".toList then return .replacement args
    else
      -- a special command comes before a function of its name, any other command after it
      match isSpecialName name, (← get).functions.lookup name,
        (builtins e tested).lookup (String.ofList name) with
      | true, _, some b => return .builtin name b args
      | _, some body, _ => return .function body args
      | _, none, some b => return .builtin name b args
      | _, none, none => return .program name args

/-- Calls a command of the shell and writes its output. -/
def callBuiltin (name : Octets) (w : Work Reply) : Work Nat := do
  let label := (← get).label
  modify fun st => { st with label := some name }
  let finish : Work Unit := modify fun st => { st with label := label }
  try
    let reply ← w
    let refusal ← write 1 reply.output
    if refusal.isSome then complain (name ++ ": I/O error".toList)
    finish
    return if refusal.isSome then reply.status ||| 1 else reply.status
  catch s =>
    finish
    throw s

/-- Runs a piece of work; an error in it is no more than an exit status, unless it is fatal. -/
def guarded (fatal : Bool) (w : Work Nat) : Work Nat := do
  let loops := (← get).loops
  try w
  catch
    | .error =>
      if fatal then throw .error
      else
        modify fun st => { st with loops := loops }
        return errorStatus
    | s => throw s

/-- Calls a function. -/
def callFunction (e : Engine) (tested : Bool) (body : Command) (args : List Octets) :
    Work Nat := do
  let outer ← get
  set { outer with
    operands := args
    loops := 0
    calls := outer.calls + 1 }
  let finish : Work Unit :=
    modify fun st => { st with
      operands := outer.operands
      loops := outer.loops
      calls := outer.calls
      -- `return` ends this function and no other
      skip := if st.skip = .returns then .none else st.skip }
  try
    let status ← e.command body tested
    finish
    return status
  catch s =>
    finish
    throw s

/-- Shows a command before it runs, on what was the error output before its redirections. -/
def showCommand (number : Option Nat) (assigned : List (Octets × Octets)) (fields : List Octets) :
    Work Unit := do
  if ← hasOption 'x' then
    let shown := assigned.map (fun a => a.1 ++ '=' :: a.2) ++ fields
    let text := (← valueOf "PS4") ++ Builtin.joined shown ++ ['\n']
    match number with
    | some n => modifySystem fun s => (s.write n text).1
    | none => pure ()

/-- Carries out assignments one after another. -/
def assignAll (sub : Command → Work Octets) (set' : Octets → Octets → Work Unit) :
    List (Octets × Word) → Work (List (Octets × Octets))
  | [] => return []
  | (name, w) :: rest => do
    let value ← wholeText sub w
    set' name value
    return (name, value) :: (← assignAll sub set' rest)

/-- Runs a simple command. With `final` it is the last one of the shell. -/
def simple (e : Engine) (tested final : Bool) (line : Nat) (assigned : List (Octets × Word))
    (words : List Word) (rs : List Redirection) : Work Nat := do
  modify fun st => { st with line := line, taken := 0 }
  let sub := outputOf e
  let fields ← expandArguments sub [] words
  let callee ← calleeOf e tested fields
  let special := (fields.head?.map isSpecialName).getD false
  let st ← get
  -- what is shown goes to the error output from before the redirections
  let errors := st.process.number? 2
  let failed : Work Nat := do
    setStatus errorStatus
    if special then throw .error
    return errorStatus
  let lasting (set' : Octets → Octets → Work Unit) (w : Work Nat) : Work Nat := do
    showCommand errors (← assignAll sub set' assigned) fields
    w
  -- assignments before an ordinary command are undone after it
  let passing (w : Work Nat) : Work Nat :=
    framed (lasting (fun name value => do
      hide name
      assignExported name value) w)
  match callee with
  | .nothing => redirected sub rs failed (lasting assign (do return (← get).taken))
  -- the redirections of `exec` without a program stay
  | .replacement args =>
    let cs ← rs.mapM (connection sub)
    let saved ← savedDescriptors cs
    if ← establishAll sub cs then
      guarded special (lasting (if args = [] then assign else assignExported)
        (match args with
          | [] => return 0
          | name :: args => callBuiltin "exec".toList (replaceShell e name args)))
    else
      restore saved
      failed
  | .builtin name b args =>
    let call : Work Nat := guarded special (callBuiltin name (b args))
    redirected sub rs failed (if isSpecialName name then lasting assign call else passing call)
  | .function body args => redirected sub rs failed (passing (callFunction e tested body args))
  | .program name args =>
    redirected sub rs failed
      (passing (if final then callLast e name args else callProgram e name args))

/-! ## Loops -/

/-- How a loop goes on after a round. -/
inductive Round
  | next
  | again
  | stop
  deriving DecidableEq, Repr

/-- How the innermost loop goes on; one loop less is left to be skipped. -/
def endRound : Work Round := do
  match (← get).skip with
  | .none => return .next
  | .returns => return .stop
  | .breaks n =>
    modify fun st => { st with skip := if n ≤ 1 then .none else .breaks (n - 1) }
    return .stop
  | .continues n =>
    -- `continue 2` ends this loop and goes on with the one around it
    if n ≤ 1 then
      modify fun st => { st with skip := .none }
      return .again
    else
      modify fun st => { st with skip := .continues (n - 1) }
      return .stop

/-- Repeats a body as its test says. `last` is the status of the last round. -/
def cycle (whileSuccess : Bool) (test body : Work Nat) : (fuel : Nat) → (last : Nat) → Work Nat
  -- an endless loop is taken for one that somebody has killed
  | 0, _ => throw (.killed 9)
  | fuel + 1, last => do
    let answer ← test
    -- a test that returns also tells the status, otherwise that is the last body
    let returned := decide ((← get).skip = .returns)
    match ← endRound with
    | .stop => return if returned then answer else last
    | .again => cycle whileSuccess test body fuel last
    | .next =>
      if (answer == 0) == whileSuccess then
        let status ← body
        match ← endRound with
        | .stop => return status
        | _ => cycle whileSuccess test body fuel status
      else return last

/-- Runs a body for each of some values. -/
def forEach (name : Octets) (body : Work Nat) : List Octets → (last : Nat) → Work Nat
  | [], last => return last
  | value :: rest, _ => do
    assign name value
    let status ← body
    match ← endRound with
    | .stop => return status
    | _ => forEach name body rest status

/-- Runs a piece of work as the rounds of a loop. -/
def inLoop (w : Work Nat) : Work Nat := do
  modify fun st => { st with loops := st.loops + 1 }
  let status ← w
  modify fun st => { st with loops := st.loops - 1 }
  return status

/-- How many rounds a loop may take. -/
def roundLimit : Nat := 3000000

/-! ## Compound commands -/

/-- How much a pipe takes before its reader has begun. -/
def pipeLimit : Nat := 1000000

/-- Runs the stages of a pipeline one after another; each of them reads what the one before
    has written. -/
def runStages (e : Engine) (tested : Bool) : Option Nat → List Command → Work Nat
  | _, [] => return 0
  | input, c :: rest => do
    let output ← if rest.isEmpty then pure none else some <$> opened (.sink [] 0 (some pipeLimit))
    let ending ← asChild e do
      match input with
      | some n => connect 0 n
      | none => pure ()
      match output with
      | some n => connect 1 n
      | none => pure ()
      e.command (.final c) tested
    announce ending
    -- the next stage reads all that was written, as the stage has ended
    match output with
    | none => return ending.status
    | some n =>
      modifySystem fun s => s.put n (.source (s.taken n))
      runStages e tested (some n) rest

/-- Runs a command that was to run beside the shell, with nothing to read. Here it ends before
    the shell goes on. -/
def runBeside (e : Engine) (c : Command) (rs : List Redirection) : Work Nat := do
  let cs ← rs.mapM (connection (outputOf e))
  let silence ← opened (.device .null)
  let number := (← get).system.processes + 1
  let ending ← asChild e do
    connect 0 silence
    if ← establishAll (outputOf e) cs then e.command (.final c) false else throw .error
  modify fun st => { st with ended := (number, ending) :: st.ended }
  return 0

/-- Does one of some patterns match a text? -/
def anyFits (sub : Command → Work Octets) (cs : Octets) : List Word → Work Bool
  | [] => return false
  | w :: ws => do
    if Pattern.fits (← pattern sub w) cs then return true else anyFits sub cs ws

/-- Runs the body of the first branch that matches a text. -/
def runBranch (e : Engine) (tested : Bool) (cs : Octets) :
    List (List Word × Command) → Work Nat
  | [] => return 0
  | (patterns, body) :: rest => do
    if ← anyFits (outputOf e) cs patterns then e.command body tested
    else runBranch e tested cs rest

/-- Runs a command that has one on its left. -/
def afterFirst (e : Engine) (tested testsFirst : Bool) (goesOn : Nat → Bool) (a b : Command) :
    Work Nat := do
  let status ← e.command a testsFirst
  if (← get).skip ≠ .none ∨ ¬ goesOn status then return status else e.command b tested

/-- A command as the last one of a shell, told by the last ones inside it. -/
def lastParts : Command → Command
  | .sequence a b => .sequence a (.final b)
  | .both a b => .both a (.final b)
  | .either a b => .either a (.final b)
  | .choice test yes no => .choice test (.final yes) (.final no)
  | .select line w branches => .select line w (branches.map fun b => (b.1, .final b.2))
  | c => c

/-- Runs a command, given an engine for what is inside it. -/
def perform (e : Engine) (tested : Bool) : Command → Work Nat
  | .nothing => return 0
  | .simple line assigned words rs => simple e tested false line assigned words rs
  | .final (.simple line assigned words rs) => simple e tested true line assigned words rs
  | .final (.subshell line c rs) => do
    modify fun st => { st with line := line }
    -- the last subshell needs no process of its own, unless actions are left to be run
    if (← get).traps.any fun t => t.2 ≠ [] then e.command (.subshell line c rs) tested
    else
      let cs ← rs.mapM (connection (outputOf e))
      if ← establishAll (outputOf e) cs then
        setStatus (← e.command (.final c) tested)
        throw .exit
      else throw .error
  | .final c => e.command (lastParts c) tested
  | .redirected line c rs => do
    modify fun st => { st with line := line }
    redirected (outputOf e) rs (return errorStatus) (e.command c tested)
  | .sequence a b => afterFirst e tested tested (fun _ => true) a b
  | .both a b => afterFirst e tested true (fun status => status == 0) a b
  | .either a b => afterFirst e tested true (fun status => status != 0) a b
  | .negated c => do
    let status ← e.command c true
    if (← get).skip ≠ .none then return status else return if status = 0 then 1 else 0
  | .pipeline cs => runStages e tested none cs
  | .background line c rs => do
    modify fun st => { st with line := if line = 0 then st.line else line }
    runBeside e c rs
  | .subshell line c rs => do
    modify fun st => { st with line := line }
    let cs ← rs.mapM (connection (outputOf e))
    let ending ← asChild e do
      if ← establishAll (outputOf e) cs then e.command (.final c) tested else throw .error
    announce ending
    return ending.status
  | .loop whileSuccess test body =>
    inLoop (cycle whileSuccess (e.command test true) (e.command body tested) roundLimit 0)
  | .choice test yes no => do
    let answer ← e.command test true
    if (← get).skip ≠ .none then return answer
    else if answer = 0 then e.command yes tested
    else e.command no tested
  | .each line name words body => do
    modify fun st => { st with line := line }
    let values ← allFields (outputOf e) words
    inLoop (forEach name (e.command body tested) values 0)
  | .select line w branches => do
    modify fun st => { st with line := line }
    let text ← wholeText (outputOf e) w
    runBranch e tested text branches
  | .define _ name body => do
    modify fun st => { st with
      functions := (name, body) :: st.functions.filter fun f => f.1 ≠ name }
    return 0

/-- Does the failure of such a command end a shell that is told to heed failures? -/
def isHeeded : Command → Bool
  | .final c => isHeeded c
  | .simple .. | .pipeline _ | .subshell .. | .background .. => true
  | _ => false

/-- Does the command leave the exit status as it is? -/
def isEmpty : Command → Bool
  | .nothing => true
  | .final c => isEmpty c
  | _ => false

/-- Runs a command, and takes signals before it and after it. -/
def performWhole (e : Engine) (c : Command) (tested : Bool) : Work Nat := do
  if isEmpty c then return 0
  else
    takeSignals e signalLimit
    let status ← perform e tested c
    setStatus status
    takeSignals e signalLimit
    -- a failure that is looked at, by `if` or `!`, does not end the shell
    if status ≠ 0 ∧ isHeeded c ∧ ¬ tested ∧ (← hasOption 'e') then throw .exit
    return status

end Work

end CompilerFuzz.Host
