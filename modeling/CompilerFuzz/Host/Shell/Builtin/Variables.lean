/-
  CompilerFuzz.Host.Shell.Builtin.Variables

  The commands of the shell that concern variables: export them, fix them, make them local,
  remove them, and give them the fields of a line of the input.
-/
import CompilerFuzz.Host.Shell.Builtin.Basic

namespace CompilerFuzz.Host.Builtin

open Work

/-! ## Marks -/

/-- Marks the variables of assignments. -/
def mark (set' : Variable → Variable) : Builtin := fun args => do
  let p ← parsed "p" args
  p.operands.forM fun arg => do
    let (name, value) := splitAssignment arg
    checkName name
    match value with
    | some value => change name fun v => set' { v with value := some value }
    | none =>
      let v := (← binding? name).getD ⟨name, none, false, false⟩
      putVariable (set' v)
  return .done

/-- Exports variables. -/
def exportAll : Builtin := mark fun v => { v with exported := true }

/-- Fixes variables. -/
def fixAll : Builtin := mark fun v => { v with fixed := true }

/-- Makes variables local to the function that runs. -/
def makeLocal : Builtin := fun args => do
  if (← get).calls = 0 then fail "not in a function".toList
  args.forM fun arg => do
    let (name, value) := splitAssignment arg
    checkName name
    hide name
    match value with
    | some value => assign name value
    | none => pure ()
  return .done

/-- Removes variables or functions. -/
def unset : Builtin := fun args => do
  let p ← parsed "vf" args
  let functions := (p.options.getLast?.map Prod.fst) = some 'f'
  p.operands.forM fun name => do
    if functions then
      modify fun st => { st with functions := st.functions.filter fun f => f.1 ≠ name }
    else
      checkName name
      match ← binding? name with
      | some v =>
        if v.fixed then fail (name ++ ": is read only".toList)
        dropVariable name
      | none => pure ()
  return .done

/-! ## Lines of the input -/

/-- What a line of the input comes to. -/
structure Line where
  /-- The characters, each with whether it was quoted by a backslash. -/
  marks : List Pattern.Mark
  /-- How many bytes were read. -/
  count : Nat
  ended : Bool

/-- A line after characters that count. -/
def Line.after (count : Nat) (ms : List Pattern.Mark) (l : Line) : Line :=
  { l with marks := ms ++ l.marks, count := l.count + count }

/-- Reads a line. A backslash quotes the next character or joins the next line, unless it
    stands for itself. -/
def readLine (raw : Bool) : Octets → Line
  | [] => ⟨[], 0, false⟩
  | '\n' :: _ => ⟨[], 1, true⟩
  | '\\' :: cs =>
    if raw then (readLine raw cs).after 1 [('\\', false)]
    else
      match cs with
      | [] => ⟨[], 1, false⟩
      | '\n' :: cs => (readLine raw cs).after 2 []
      | c :: cs => (readLine raw cs).after 2 [(c, true)]
  | '\x00' :: cs => (readLine raw cs).after 1 []
  | c :: cs => (readLine raw cs).after 1 [(c, false)]

/-- Does a character separate fields? -/
def separates (ifs : Octets) (m : Pattern.Mark) : Bool := !m.2 && ifs.contains m.1

/-- Is a character a blank that separates fields? -/
def isSpacing (ifs : Octets) (m : Pattern.Mark) : Bool :=
  separates ifs m && (m.1 = ' ' || m.1 = '\t' || m.1 = '\n')

/-- What is left after a separator: blanks, at most one other character, and blanks. -/
def afterSeparator (ifs : Octets) (ms : List Pattern.Mark) : List Pattern.Mark :=
  match ms.dropWhile (isSpacing ifs) with
  | m :: rest => if separates ifs m then rest.dropWhile (isSpacing ifs) else m :: rest
  | [] => []

/-- The field that takes all that is left. A single field loses the separator after it. -/
def lastField (ifs : Octets) (ms : List Pattern.Mark) : Octets :=
  let field := ms.takeWhile fun m => !separates ifs m
  let rest := ms.dropWhile fun m => !separates ifs m
  let all :=
    if afterSeparator ifs rest = [] then field
    else (ms.reverse.dropWhile (isSpacing ifs)).reverse
  all.map Prod.fst

/-- The fields of a line, one for each name. -/
def fieldsFor (ifs : Octets) : List Octets → List Pattern.Mark → List (Octets × Octets)
  | [], _ => []
  | [name], ms => [(name, lastField ifs ms)]
  | name :: names, ms =>
    let field := ms.takeWhile fun m => !separates ifs m
    let rest := ms.dropWhile fun m => !separates ifs m
    (name, field.map Prod.fst) :: fieldsFor ifs names (afterSeparator ifs rest)

/-- Gives variables the fields of a line of the input. -/
def readFields : Builtin := fun args => do
  let p ← parsed "r" args
  if p.operands = [] then fail "arg count".toList
  p.operands.forM checkName
  let st ← get
  let (input, number) := match st.process.number? 0 with
    | none => ([], none)
    | some n => (((st.system.left n).toOption).getD [], some n)
  let line := readLine (p.has 'r') input
  match number with
  | some n => modifySystem fun s => s.step n line.count
  | none => pure ()
  let ifs ← separators
  (fieldsFor ifs p.operands (line.marks.dropWhile (isSpacing ifs))).forM fun e => assign e.1 e.2
  return .answer line.ended

end CompilerFuzz.Host.Builtin
