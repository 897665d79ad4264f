/-
  CompilerFuzz.Host.Utility.Streams

  The programs that print texts or answer questions, and those that pass their input on: `echo`,
  `printf`, `test`, `sleep`, `cat`, `head`, `tail`, `wc`, `tr`, `seq` and `yes`.
-/
import CompilerFuzz.Host.Format
import CompilerFuzz.Host.Pattern
import CompilerFuzz.Host.Routine
import CompilerFuzz.Host.Test

namespace CompilerFuzz.Host.Utility

open CompilerFuzz.Files CompilerFuzz.Text Routine

/-! ## Texts -/

/-- Does nothing. -/
def succeed : Program := fun _ => return 0

/-- Does nothing, without success. -/
def refuse : Program := fun _ => return 1

/-- Prints its arguments. -/
def echo : Program := fun args => do
  let isOption (arg : Octets) : Bool := arg.head? = some '-' && 1 < arg.length
    && (arg.drop 1).all (['n', 'e', 'E'].contains ·)
  let letters := (args.takeWhile isOption).flatMap (List.drop 1)
  let text := [' '].intercalate (args.dropWhile isOption)
  let (cs, more) :=
    if (letters.filter (· ≠ 'n')).getLast? = some 'e' then Format.resolve text.length text
    else (text, true)
  print (cs ++ if letters.contains 'n' || !more then [] else ['\n'])
  return 0

/-- Prints by a format. -/
def printf : Program := fun args => do
  match args with
  | [] => misused 1 "missing operand".toList
  | format :: args =>
    let printed := Format.run format args
    print printed.output
    printed.complaints.reverse.forM complain
    return printed.status

/-- Answers a question by its exit status. -/
def test : Program := fun args => do
  match Test.evaluate (Test.factsOf (← get) (← process).directory) args with
  | .ok answer => return if answer then 0 else 1
  | .error message => fail 2 message

/-- Answers a question between brackets. -/
def bracket : Program := fun args => do
  if args.getLast? = some [']'] then test args.dropLast
  else fail 2 ("missing ".toList ++ quoted [']'])

/-- Is this a span of time: a number, which may have a fraction and a unit? -/
def isInterval (cs : Octets) : Bool :=
  let digits := if "smhd".toList.contains (cs.getLast?.getD ' ') then cs.dropLast else cs
  let fraction := (digits.dropWhile Char.isDigit).drop 1
  digits.any Char.isDigit && fraction.all Char.isDigit
    && ((digits.dropWhile Char.isDigit).head?.getD '.') = '.'

/-- Waits, which takes no time here. -/
def sleep : Program := fun args => do
  if args = [] then misused 1 "missing operand".toList
  match args.find? fun a => !isInterval a with
  | some a => misused 1 ("invalid time interval ".toList ++ quoted a)
  | none => return 0

/-! ## Inputs -/

/-- Would copying an open file to the standard output copy it to its own end? -/
def copiesToItself (s : System) (p : Process) (n : Nat) : Bool :=
  match s.get n, (p.number? 1).map s.get with
  | .file spot offset .., some (.file spot' offset' appends' ..) =>
    spot = spot' && offset < (if appends' then (s.content spot).length else offset')
  | _, _ => false

/-- Goes through inputs one after another: those among the operands, or the standard input. An
    input that cannot be opened is complained of. The answer is the exit status. -/
def forInputs (paths : List Octets) (complaint : Octets → Octets → Octets)
    (use : Octets → Nat → Routine (Option Octets)) : Routine Nat := do
  let faults ← (if paths = [] then [['-']] else paths).mapM fun path => do
    let fault ← match ← openInput path with
      | .error message => pure (some message)
      | .ok n => use path n
    match fault with
    | none => return false
    | some message =>
      complain (complaint path message)
      return true
  return if faults.any id then 1 else 0

/-- Passes its inputs on. -/
def cat : Program := fun args => do
  let p ← parsed 1 "u" true args
  if ((← process).number? 1).isNone then fail 1 "standard output: Bad file descriptor".toList
  forInputs p.operands (fun path message => named path ++ [':', ' '] ++ message) fun _ n => do
    if copiesToItself (← get) (← process) n then return some "input file is output file".toList
    match ← readRest n with
    | .error message => return some message
    | .ok cs =>
      print cs
      return none

/-! ## Parts of files -/

/-- A part of a text, counted in bytes or in lines. -/
structure Measure where
  inLines : Bool
  count : Nat
  /-- Is the count from the other end? -/
  other : Bool

/-- The units of a text in which a measure counts. -/
def Measure.units (m : Measure) (cs : Octets) : List Octets :=
  if m.inLines then lines cs else cs.map fun c => [c]

/-- The part of a text at its start. -/
def Measure.start (m : Measure) (cs : Octets) : Octets :=
  let us := m.units cs
  (us.take (if m.other then us.length - m.count else m.count)).flatten

/-- The part of a text at its end. -/
def Measure.finish (m : Measure) (cs : Octets) : Octets :=
  let us := m.units cs
  (us.drop (if m.other then m.count - 1 else us.length - m.count)).flatten

/-- Arguments with a bare count in front written as an option. -/
def withCount : List Octets → List Octets
  | ('-' :: c :: cs) :: rest =>
    (if c.isDigit then '-' :: 'n' :: c :: cs else '-' :: c :: cs) :: rest
  | args => args

/-- The measure that options ask for; a sign tells that the count is from the other end. -/
def measure (sign : Char) (p : Parsed) : Routine Measure := do
  match p.options.getLast? with
  | none => return ⟨true, 10, false⟩
  | some (letter, value) =>
    let other := value.head? = some sign
    let digits := if other ∨ value.head? = some '-' then value.drop 1 else value
    if digits ≠ [] ∧ digits.all Char.isDigit then return ⟨letter = 'n', numeralValue digits, other⟩
    else
      fail 1 ((if letter = 'n' then "invalid number of lines: " else "invalid number of bytes: ").toList
        ++ quoted value)

/-- What is left in an open file, or as much of it as is asked for where it has no end. -/
def leftUpTo (n : Nat) (limit : Nat) : Routine (Except Octets Octets) := do
  match (← get).get n with
  | .device .zero => return .ok (List.replicate limit '\x00')
  | _ => readRest n

/-- Prints parts of files, with headings if there is more than one. -/
def printParts (paths : List Octets) (limit : Nat) (part : Octets → Octets) : Routine Nat :=
  forInputs paths
    (fun path message =>
      "cannot open ".toList ++ apostrophed path ++ " for reading: ".toList ++ message)
    fun path n => do
      match ← leftUpTo n limit with
      | .error message => fail 1 ("error reading ".toList ++ apostrophed path ++ [':', ' '] ++ message)
      | .ok cs =>
        let gap : Octets := if paths.head? = some path then [] else ['\n']
        if 1 < paths.length then print (gap ++ "==> ".toList ++ path ++ " <==\n".toList)
        print (part cs)
        return none

/-- Prints the start of files. -/
def head : Program := fun args => do
  let p ← parsed 1 "n:c:" true (withCount args)
  let m ← measure '-' p
  printParts p.operands m.count m.start

/-- Prints the end of files. -/
def tail : Program := fun args => do
  let p ← parsed 1 "n:c:" true (withCount args)
  let m ← measure '+' p
  printParts p.operands 0 m.finish

/-! ## Counts -/

/-- How many words a text has. -/
def wordCount (cs : Octets) : Nat :=
  (cs.foldl (fun (s : Nat × Bool) c =>
    if Number.isBlank c then (s.1, false) else (if s.2 then s.1 else s.1 + 1, true)) (0, false)).1

/-- The counts of `wc` by their letters, in the order in which they are printed. -/
def counts : List (Char × (Octets → Nat)) :=
  [ ('l', fun cs => cs.count '\n'), ('w', wordCount),
    ('m', fun cs => (cs.filter fun c => c.toNat / 64 ≠ 2).length), ('c', List.length) ]

/-- Texts at the right of columns. -/
def inColumns (width : Nat) (ns : List Nat) : Octets :=
  [' '].intercalate (ns.map fun n =>
    let ds := numeral n
    List.replicate (width - ds.length) ' ' ++ ds)

/-- An input of `wc`: its path, what is in it, and whether that is a file. -/
structure Counted where
  path : Octets
  content : Octets
  isFile : Bool

/-- Opens and reads an input of `wc`, if that is possible. -/
def counted? (path : Octets) : Routine (Option Counted) := do
  match ← openInput path with
  | .error message =>
    complain (named path ++ [':', ' '] ++ message)
    return none
  | .ok n =>
    let isFile := match (← get).get n with
      | .file .. => true
      | _ => false
    match ← readRest n with
    | .error message =>
      complain (named path ++ [':', ' '] ++ message)
      return none
    | .ok cs => return some ⟨path, cs, isFile⟩

/-- Counts lines, words and bytes. -/
def wc : Program := fun args => do
  let p ← parsed 1 "lwmc" true args
  let letters := if p.options = [] then ['l', 'w', 'c'] else p.options.map Prod.fst
  let wanted := (counts.filter fun c => letters.contains c.1).map Prod.snd
  let paths := if p.operands = [] then [['-']] else p.operands
  let inputs ← paths.mapM counted?
  let found := inputs.filterMap id
  let total := found.flatMap Counted.content
  let digits := (numeral ((found.filter Counted.isFile).flatMap Counted.content).length).length
  let width :=
    if paths.length = 1 ∧ wanted.length = 1 then 1
    else if found.all Counted.isFile then digits
    else max 7 digits
  let row (cs name : Octets) : Octets := inColumns width (wanted.map fun f => f cs) ++ name ++ ['\n']
  print (found.flatMap fun i => row i.content (if p.operands = [] then [] else ' ' :: i.path))
  if 1 < paths.length then print (row total " total".toList)
  return if inputs.all Option.isSome then 0 else 1

/-! ## Characters -/

/-- All bytes. -/
def allBytes : Octets := (List.range 256).map Char.ofNat

/-- The first character of a set's text, which may be an escape, and what follows. -/
def setCharacter : Octets → Option (Char × Octets)
  | '\\' :: c :: cs =>
    if Format.isOctal c then
      let ds := Format.octalDigits 3 (c :: cs)
      some (Format.octalByte ds, (c :: cs).drop ds.length)
    else some ((Format.escapeLetters.lookup c).getD c, cs)
  | c :: cs => some (c, cs)
  | [] => none

/-- The characters of a class, such as `[:upper:]`, at the front of a set's text, and what
    follows. -/
def setClass? : Octets → Option (Octets × Octets)
  | '[' :: ':' :: rest =>
    let name := rest.takeWhile (· ≠ ':')
    match rest.drop name.length with
    | ':' :: ']' :: rest => some (allBytes.filter (Pattern.inClass (String.ofList name)), rest)
    | _ => none
  | _ => none

/-- The characters of a set. The fuel is more than the length of the text. -/
def setOf : (fuel : Nat) → Octets → Except Octets Octets
  | 0, _ => .ok []
  | fuel + 1, cs =>
    match setClass? cs, setCharacter cs with
    | some (members, rest), _ => (setOf fuel rest).map (members ++ ·)
    | none, none => .ok []
    | none, some (a, '-' :: rest) =>
      match setCharacter rest with
      | none => .ok [a, '-']
      | some (b, rest) =>
        if b < a then
          .error ("range-endpoints of '".toList ++ [a, '-', b]
            ++ "' are in reverse collating sequence order".toList)
        else
          (setOf fuel rest).map
            (((List.range (b.toNat - a.toNat + 1)).map fun i => Char.ofNat (a.toNat + i)) ++ ·)
    | none, some (a, rest) => (setOf fuel rest).map (a :: ·)

/-- Reads a set, or ends the program. -/
def readSet (cs : Octets) : Routine Octets := do
  match setOf (cs.length + 1) cs with
  | .ok set' => return set'
  | .error message => fail 1 message

/-- The character for one at a position of the first set. The last of the second set stands for
    all that it lacks. -/
def exchanged (source target : Octets) (c : Char) : Char :=
  if source.contains c then
    (target[(source.length - 1) - source.reverse.idxOf c]?).getD (target.getLast?.getD c)
  else c

/-- A text in which each character of a set comes only once in a row. -/
def squeezed (members : Octets) (cs : Octets) : Octets :=
  (cs.foldl (fun (r : Octets) c =>
    if r.head? = some c && members.contains c then r else c :: r) []).reverse

/-- Changes, removes or squeezes characters. -/
def tr : Program := fun args => do
  let p ← parsed 1 "dscC" false args
  match p.operands with
  | [] => misused 1 "missing operand".toList
  | source :: rest =>
    let deletes := p.has 'd'
    if rest = [] ∧ ¬ deletes ∧ ¬ p.has 's' then
      misused 1 ("missing operand after ".toList ++ quoted source)
    let first ← readSet source
    let first := if p.has 'c' ∨ p.has 'C' then allBytes.filter fun c => !first.contains c else first
    let second ← readSet (rest.head?.getD [])
    let exchanges := !deletes && rest ≠ []
    let table : Array Char :=
      (allBytes.map fun c => if exchanges then exchanged first second c else c).toArray
    let input ← readInput ['-']
    match input with
    | .error message => fail 1 ("read error: ".toList ++ message)
    | .ok cs =>
      let cs := if deletes then cs.filter fun c => !first.contains c
        else cs.map fun c => (table[c.toNat]?).getD c
      print (if p.has 's' then squeezed (if rest = [] then first else second) cs else cs)
      return 0

/-! ## Output of their own -/

/-- Prints the numbers from one to another. -/
def seq : Program := fun args => do
  let number (cs : Octets) : Routine Int := do
    match Number.whole? false cs with
    | some n => return n
    | none => misused 1 ("invalid floating point argument: ".toList ++ quoted cs)
  let (first, step, last) ← match ← args.mapM number with
    | [] => misused 1 "missing operand".toList
    | [b] => pure (1, 1, b)
    | [a, b] => pure (a, 1, b)
    | [a, s, b] => pure (a, s, b)
    | _ => misused 1 ("extra operand ".toList ++ quoted ((args[3]?).getD []))
  if step = 0 then
    misused 1 ("invalid Zero increment value: ".toList ++ quoted ((args[1]?).getD []))
  let count := ((last - first).fdiv step + 1).toNat
  print ((List.range count).flatMap fun (i : Nat) => Number.text (first + i * step) ++ ['\n'])
  return 0

/-- How many lines are written at once where output has no end. -/
def flood : Nat := 20000

/-- Prints a line without end. -/
def yes : Program := fun args => do
  let line := [' '].intercalate (if args = [] then [['y']] else args) ++ ['\n']
  let block := (List.replicate flood line).flatten
  (List.replicate 100 block).forM print
  throw (.killed Signal.brokenPipe)

end CompilerFuzz.Host.Utility
