/-
  CompilerFuzz.Host.Format

  Formatted output: escapes that stand for single bytes, and formats whose conversions
  take one argument each. A format is used again as long as arguments are left.
-/
import CompilerFuzz.Host.Number

namespace CompilerFuzz.Host.Format

open CompilerFuzz.Text

/-! ## Escapes -/

/-- The byte that a letter after a backslash stands for. -/
def escapeLetters : List (Char × Char) :=
  [('a', '\x07'), ('b', '\x08'), ('e', '\x1b'), ('f', '\x0c'), ('n', '\n'), ('r', '\r'),
    ('t', '\t'), ('v', '\x0b'), ('\\', '\\')]

/-- Is the character an octal digit? -/
def isOctal (c : Char) : Bool := '0' ≤ c ∧ c ≤ '7'

/-- The byte of octal digits. -/
def octalByte (ds : Octets) : Char :=
  Char.ofNat (ds.foldl (fun n c => n * 8 + digitValue c) 0 % 256)

/-- Up to `n` octal digits at the front of a text. -/
def octalDigits (n : Nat) (cs : Octets) : Octets := (cs.take n).takeWhile isOctal

/-- What a backslash stands for, and what follows; `none` at the end of all output. In an
    argument a zero may come before three octal digits, and `\c` ends all output. -/
def escape (argument : Bool) : Octets → Option (Octets × Octets)
  | [] => some (['\\'], [])
  | c :: cs =>
    if argument ∧ c = 'c' then none
    else if argument ∧ c = '0' then
      let ds := octalDigits 3 cs
      some ([octalByte ds], cs.drop ds.length)
    else if isOctal c then
      let ds := octalDigits 3 (c :: cs)
      some ([octalByte ds], (c :: cs).drop ds.length)
    else
      match escapeLetters.lookup c with
      | some b => some ([b], cs)
      | none => some (['\\'], c :: cs)

/-- An argument with its escapes resolved, and whether output goes on after it. The fuel is at
    least the length of the argument. -/
def resolve : (fuel : Nat) → Octets → Octets × Bool
  | 0, _ => ([], true)
  | _ + 1, [] => ([], true)
  | fuel + 1, c :: cs =>
    if c = '\\' then
      match escape true cs with
      | none => ([], false)
      | some (bs, rest) =>
        let r := resolve fuel rest
        (bs ++ r.1, r.2)
    else
      let r := resolve fuel cs
      (c :: r.1, r.2)

/-! ## Formats -/

/-- A width or a precision. -/
inductive Size
  | given (n : Nat)
  /-- The next argument. -/
  | argument
  deriving DecidableEq, Repr

/-- A conversion. -/
structure Conversion where
  flags : Octets
  width : Size
  precision : Option Size
  letter : Char
  /-- How it is written, from the percent sign to the letter. -/
  source : Octets
  deriving DecidableEq, Repr

/-- A piece of a format. -/
inductive Piece
  | text (cs : Octets)
  | conversion (c : Conversion)
  /-- A percent sign at the end. -/
  | incomplete
  deriving DecidableEq, Repr

/-- Characters that may stand behind the percent sign. -/
def isFlag (c : Char) : Bool := c ∈ ['-', '+', ' ', '0', '#']

/-- The size at the front of a text, and what follows. -/
def size (cs : Octets) : Size × Octets :=
  match cs with
  | '*' :: cs => (.argument, cs)
  | cs => (.given (numeralValue (cs.takeWhile Char.isDigit)), cs.dropWhile Char.isDigit)

/-- The conversion behind a percent sign, and what follows it; `none` at the end. -/
def conversion? (cs : Octets) : Option (Conversion × Octets) :=
  let flags := cs.takeWhile isFlag
  let (width, rest) := size (cs.dropWhile isFlag)
  let (precision, rest) := match rest with
    | '.' :: rest =>
      let (p, rest) := size rest
      (some p, rest)
    | rest => (none, rest)
  match rest with
  | [] => none
  | letter :: rest =>
    some (⟨flags, width, precision, letter, '%' :: cs.take (cs.length - rest.length)⟩, rest)

/-- The pieces of a format. The fuel is at least its length. -/
def pieces : (fuel : Nat) → Octets → List Piece
  | 0, _ => []
  | _ + 1, [] => []
  | fuel + 1, c :: cs =>
    if c = '\\' then
      match escape false cs with
      | some (bs, rest) => .text bs :: pieces fuel rest
      | none => []
    else if c = '%' then
      match cs with
      | '%' :: rest => .text ['%'] :: pieces fuel rest
      | cs =>
        match conversion? cs with
        | some (v, rest) => .conversion v :: pieces fuel rest
        | none => [.incomplete]
    else .text [c] :: pieces fuel cs

/-! ## Layout -/

/-- How the text of an argument is laid out. -/
structure Layout where
  left : Bool
  zeros : Bool
  width : Nat
  precision : Option Nat
  flags : Octets
  deriving DecidableEq, Repr

/-- A text filled up to a width. -/
def pad (l : Layout) (cs : Octets) : Octets :=
  let blanks := List.replicate (l.width - cs.length) ' '
  if l.left then cs ++ blanks else blanks ++ cs

/-- Digits after a sign, filled up to a width, with zeros between the two if asked for. -/
def padDigits (l : Layout) (zeros : Bool) (sign ds : Octets) : Octets :=
  if zeros ∧ ¬ l.left then
    sign ++ List.replicate (l.width - (sign ++ ds).length) '0' ++ ds
  else pad l (sign ++ ds)

/-- A whole number. With a precision the digits are at least that many, and none for zero. -/
def padWhole (l : Layout) (sign ds : Octets) : Octets :=
  let ds := match l.precision with
    | some p => if p = 0 ∧ ds = ['0'] then [] else List.replicate (p - ds.length) '0' ++ ds
    | none => ds
  padDigits l (l.zeros && l.precision.isNone) sign ds

/-- The sign of a number. -/
def signOf (l : Layout) (negative : Bool) : Octets :=
  if negative then ['-']
  else if l.flags.contains '+' then ['+']
  else if l.flags.contains ' ' then [' ']
  else []

/-- The digits of a natural number under a letter, and what comes before them. -/
def naturalDigits (l : Layout) (letter : Char) (n : Nat) : Octets × Octets :=
  let alternate := l.flags.contains '#'
  if letter = 'o' then
    let ds := Nat.toDigits 8 n
    ([], if alternate ∧ n ≠ 0 then '0' :: ds else ds)
  else if letter = 'x' then (if alternate ∧ n ≠ 0 then ['0', 'x'] else [], Nat.toDigits 16 n)
  else if letter = 'X' then
    (if alternate ∧ n ≠ 0 then ['0', 'X'] else [], (Nat.toDigits 16 n).map Char.toUpper)
  else ([], numeral n)

/-! ## Printing -/

/-- What has been printed, latest first, and what is left. -/
structure Printed where
  args : List Octets
  chunks : List Octets
  complaints : List Octets
  status : Nat
  /-- Does output go on? -/
  more : Bool

namespace Printed

/-- More output. -/
def add (p : Printed) (cs : Octets) : Printed := { p with chunks := cs :: p.chunks }

/-- A complaint, after which output goes on. -/
def complain (p : Printed) (message : Octets) : Printed :=
  { p with complaints := message :: p.complaints, status := 1 }

/-- A complaint that ends all output. -/
def abort (p : Printed) (message : Octets) : Printed :=
  { p with complaints := message :: p.complaints, status := 2, more := false }

/-- Takes the next argument; missing ones are empty. -/
def next (p : Printed) : Octets × Printed :=
  (p.args.head?.getD [], { p with args := p.args.drop 1 })

/-- The output. -/
def output (p : Printed) : Octets := p.chunks.reverse.flatten

end Printed

/-- The code of a character after a quote, for an argument that is one. -/
def quotedCode? : Octets → Option Nat
  | '\'' :: cs => some ((cs.head?.map Char.toNat).getD 0)
  | '"' :: cs => some ((cs.head?.map Char.toNat).getD 0)
  | _ => none

/-- Complains about what is left of a numeric argument. -/
def checked (arg rest : Octets) (found outOfRange : Bool) (p : Printed) : Printed :=
  if ¬ found ∧ arg ≠ [] then p.complain (arg ++ ": expected numeric value".toList)
  else if rest ≠ [] then p.complain (arg ++ ": not completely converted".toList)
  else if outOfRange then p.complain (arg ++ ": Numerical result out of range".toList)
  else p

/-- Takes the next argument as a whole number. -/
def nextWhole (signed : Bool) (p : Printed) : Int × Printed :=
  let (arg, p) := p.next
  match quotedCode? arg with
  | some n => (n, p)
  | none =>
    let r := Number.read true arg
    let inRange :=
      if signed then Number.isNumber r.value else decide (r.value.natAbs < Number.modulus.natAbs)
    let n :=
      if signed then Number.clamped r.value
      else if inRange then r.value % Number.modulus
      else Number.modulus - 1
    (n, checked arg r.rest r.found (!inRange) p)

/-- The layout that a conversion asks for; sizes may be arguments. -/
def layout (v : Conversion) (p : Printed) : Layout × Printed :=
  let (width, p) : Int × Printed := match v.width with
    | .given n => (n, p)
    | .argument => nextWhole true p
  let (precision, p) : Option Int × Printed := match v.precision with
    | none => (none, p)
    | some (.given n) => (some n, p)
    | some .argument =>
      let (n, p) := nextWhole true p
      (if n < 0 then none else some n, p)
  (⟨v.flags.contains '-' || width < 0, v.flags.contains '0', width.natAbs,
    precision.map Int.toNat, v.flags⟩, p)

/-- Prints one argument by a conversion. -/
def convert (v : Conversion) (p : Printed) : Printed :=
  let (l, p) := layout v p
  let cut (cs : Octets) : Octets := match l.precision with
    | some n => cs.take n
    | none => cs
  if v.letter = 's' then
    let (arg, p) := p.next
    p.add (pad l (cut arg))
  else if v.letter = 'c' then
    let (arg, p) := p.next
    p.add (pad l (arg.take 1 ++ if arg = [] then ['\x00'] else []))
  else if v.letter = 'b' then
    let (arg, p) := p.next
    let r := resolve arg.length arg
    { p.add (pad l (cut r.1)) with more := r.2 }
  else if v.letter = 'd' ∨ v.letter = 'i' then
    let (n, p) := nextWhole true p
    p.add (padWhole l (signOf l (n < 0)) (numeral n.natAbs))
  else if v.letter ∈ ['u', 'o', 'x', 'X'] then
    let (n, p) := nextWhole false p
    let (mark, ds) := naturalDigits l v.letter n.toNat
    p.add (padWhole l mark ds)
  else p.abort (v.source ++ ": invalid directive".toList)

/-- Prints the pieces of a format once. -/
def once : List Piece → Printed → Printed
  | [], p => p
  | piece :: rest, p =>
    if ¬ p.more then p
    else
      match piece with
      | .text cs => once rest (p.add cs)
      | .conversion v => once rest (convert v p)
      | .incomplete => p.abort "missing format character".toList

/-- Prints a format, again and again while it uses up arguments. -/
def print (format : List Piece) : (fuel : Nat) → Printed → Printed
  | 0, p => p
  | fuel + 1, p =>
    let q := once format p
    if q.args ≠ [] ∧ q.args.length < p.args.length ∧ q.more then print format fuel q else q

/-- Prints arguments by a format. -/
def run (format : Octets) (args : List Octets) : Printed :=
  print (pieces format.length format) (args.length + 1) ⟨args, [], [], 0, true⟩

end CompilerFuzz.Host.Format
