/-
  CompilerFuzz.Host.Shell.Builtin.Control

  The commands of the shell that steer it: loops and functions are left, the shell ends,
  options and operands change, signals get actions.
-/
import CompilerFuzz.Host.Shell.Builtin.Basic

namespace CompilerFuzz.Host.Builtin

open CompilerFuzz.Text Work

/-- Does nothing, well. -/
def succeed : Builtin := fun _ => return .done

/-- Does nothing, badly. -/
def refuse : Builtin := fun _ => return .silent 1

/-! ## Leaving -/

/-- Ends the shell. -/
def exit : Builtin := fun args => do
  match args with
  | [] =>
    match (← get).beforeTrap with
    | some status => setStatus status
    | none => pure ()
  | n :: _ => setStatus (← number n)
  throw .exit

/-- Leaves a function or a script. -/
def leave : Builtin := fun args => do
  let status ← match args with
    | [] => pure ((← get).beforeTrap.getD (← get).status)
    | n :: _ => number n
  modify fun st => { st with skip := .returns }
  return .silent status

/-- Leaves loops, or goes on with the next round of one. -/
def skipLoops (make : Nat → Skip) : Builtin := fun args => do
  let n ← match args with
    | [] => pure 1
    | n :: _ =>
      let k ← number n
      if k = 0 then fail ("Illegal number: ".toList ++ n)
      pure k
  let loops := (← get).loops
  if 0 < loops then modify fun st => { st with skip := make (min n loops) }
  return .done

/-! ## Operands and options -/

/-- Drops operands. -/
def shift : Builtin := fun args => do
  let n ← match args with
    | [] => pure 1
    | n :: _ => number n
  let st ← get
  if st.operands.length < n then fail "can't shift that many".toList
  set { st with operands := st.operands.drop n }
  return .done

/-- The options of a shell by name. -/
def optionNames : List (String × Char) :=
  [("errexit", 'e'), ("noglob", 'f'), ("xtrace", 'x'), ("nounset", 'u')]

/-- Options with one of them set or not, in the order in which the shell shows them. -/
def withOption (value : Bool) (c : Char) (os : List Char) : List Char :=
  ['u', 'x', 'f', 'e'].filter fun o => if o = c then value else os.contains o

/-- Sets the options of one argument; `rest` may hold a name. -/
def setLetters (value : Bool) :
    Octets → List Octets → List Char → Except Octets (List Char × List Octets)
  | [], rest, os => .ok (os, rest)
  | c :: cs, rest, os =>
    if c = 'o' ∧ rest ≠ [] then
      match optionNames.lookup (String.ofList (rest.headD [])) with
      | some o => setLetters value cs (rest.drop 1) (withOption value o os)
      | none => .error ("Illegal option -o ".toList ++ rest.headD [])
    else if optionNames.any fun o => o.2 = c then
      setLetters value cs rest (withOption value c os)
    else .error ("Illegal option ".toList ++ [if value then '-' else '+', c])

/-- The options that arguments set, and the operands; `none` if there are none and those of the
    shell stay. The fuel is more than the number of arguments. -/
def settings : (fuel : Nat) → List Octets → List Char →
    Except Octets (List Char × Option (List Octets))
  | 0, _, os => .ok (os, none)
  | fuel + 1, args, os =>
    match args with
    | [] => .ok (os, none)
    | ['-', '-'] :: rest => .ok (os, some rest)
    | (sign :: cs) :: rest =>
      if sign = '-' ∨ sign = '+' then
        match setLetters (sign = '-') cs rest os with
        | .error e => .error e
        | .ok (os, rest) => settings fuel rest os
      else .ok (os, some args)
    | [] :: _ => .ok (os, some args)

/-- Sets options and operands. -/
def setAll : Builtin := fun args => do
  let st ← get
  match settings (args.length + 1) args st.options with
  | .error message => fail message
  | .ok (options, operands) =>
    set { st with options := options, operands := operands.getD st.operands }
    return .done

/-! ## Signals -/

/-- The number of a signal by number or, in any case, by name; zero is the end of the shell. -/
def signal? (cs : Octets) : Option Nat :=
  if cs ≠ [] ∧ cs.all Char.isDigit then
    let n := numeralValue cs
    if n ≤ Signal.largest then some n else none
  else
    (List.range (Signal.largest + 1)).find? fun n => (Signal.name n).toList = cs.map Char.toUpper

/-- Gives signals an action, or none. -/
def trapAll (action : Option Octets) : List Octets → Work Reply
  | [] => return .done
  | name :: rest => do
    match signal? name with
    | none =>
      tell ("trap: ".toList ++ name ++ ": bad trap".toList)
      return .silent 1
    | some n =>
      modify fun st =>
        let others := st.traps.filter fun t => t.1 ≠ n
        { st with traps := match action with
            | some a => (n, a) :: others
            | none => others }
      trapAll action rest

/-- Gives signals actions. -/
def trap : Builtin := fun args => do
  let p ← parsed "" args
  match p.operands with
  | [] => return .done
  | [name] => trapAll none [name]
  | first :: rest =>
    if first ≠ [] ∧ first.all Char.isDigit ∧ (signal? first).isSome then
      trapAll none (first :: rest)
    else trapAll (if first = ['-'] then none else some first) rest

/-- Sends a signal to processes. -/
def kill : Builtin := fun args => do
  let usage := "Usage: kill [-s sigspec | -signum | -sigspec] [pid]...".toList
  let (signal, targets) ← match args with
    | ['-', 's'] :: name :: targets => pure (signal? name, targets)
    | ('-' :: name) :: targets => pure (signal? name, targets)
    | targets => pure (some Signal.terminate, targets)
  match signal, targets with
  | none, _ | _, [] => fail usage
  | some signal, targets =>
    let found ← targets.mapM fun target => do
      let process ← number target
      let isLiving := (← get).system.living.contains process
      if isLiving then modifySystem fun s => s.send process signal
      else complain "No such process\n".toList
      return isLiving
    return .answer (found.all id)

end CompilerFuzz.Host.Builtin
