/-
  CompilerFuzz.Host.Options

  Options among the arguments of a command: letters after a dash, some of them with a value.
  Two dashes alone end the options.
-/
import CompilerFuzz.Host.Octets

namespace CompilerFuzz.Host

/-- Options by their letters, with their values, and the arguments that are none. -/
structure Parsed where
  options : List (Char × Octets)
  operands : List Octets
  deriving Repr

namespace Parsed

/-- Is the option there? -/
def has (p : Parsed) (c : Char) : Bool := p.options.any fun o => o.1 = c

end Parsed

namespace Options

/-- What is wrong with options. -/
inductive Fault
  | unknown (letter : Char)
  | noValue (letter : Char)
  deriving DecidableEq, Repr

/-- Does the option of a letter take a value? `none` if there is no such option. The options of a
    command are written one after another, each with a colon after it if it takes a value. -/
def takesValue? (known : String) (c : Char) : Option Bool :=
  if c = ':' then none
  else
    match known.toList.dropWhile (· ≠ c) with
    | [] => none
    | _ :: rest => some (rest.head? = some ':')

/-- The options of the letters of one argument, and the arguments that are left. -/
def ofLetters (known : String) :
    Octets → List Octets → Except Fault (List (Char × Octets) × List Octets)
  | [], rest => .ok ([], rest)
  | c :: cs, rest =>
    match takesValue? known c with
    | none => .error (.unknown c)
    | some true =>
      match cs, rest with
      | [], value :: rest => .ok ([(c, value)], rest)
      | [], [] => .error (.noValue c)
      | cs, rest => .ok ([(c, cs)], rest)
    | some false =>
      match ofLetters known cs rest with
      | .ok (os, rest) => .ok ((c, []) :: os, rest)
      | .error e => .error e

/-- Takes the options at the front of arguments, or all of them where they may come in any
    order. The fuel is more than the number of the arguments. -/
def parse (known : String) (anyOrder : Bool) : (fuel : Nat) → List Octets → Except Fault Parsed
  | 0, args => .ok ⟨[], args⟩
  | fuel + 1, args =>
    match args with
    | [] => .ok ⟨[], []⟩
    | ['-', '-'] :: rest => .ok ⟨[], rest⟩
    | ('-' :: c :: cs) :: rest =>
      match ofLetters known (c :: cs) rest with
      | .error e => .error e
      | .ok (os, rest) =>
        (parse known anyOrder fuel rest).map fun p => { p with options := os ++ p.options }
    | arg :: rest =>
      if anyOrder then
        (parse known anyOrder fuel rest).map fun p => { p with operands := arg :: p.operands }
      else .ok ⟨[], args⟩

end Options

end CompilerFuzz.Host
