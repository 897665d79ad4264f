/-
  CompilerFuzz.Host.Number

  Whole numbers as texts hold them at their front: blanks, a sign and digits. A text that tells
  its own base starts with `0x` for sixteen and with `0` for eight. Numbers are those of a
  word of 64 bits.
-/
import CompilerFuzz.Host.Octets
import CompilerFuzz.Text.Numeral

namespace CompilerFuzz.Host.Number

open CompilerFuzz.Text

/-- The largest number. -/
def largest : Int := 0x7FFFFFFFFFFFFFFF

/-- The smallest number. -/
def smallest : Int := -0x8000000000000000

/-- The number of words. -/
def modulus : Int := 0x10000000000000000

/-- The number that a word holds of an integer. -/
def wrapped (n : Int) : Int := (n - smallest) % modulus + smallest

/-- The number closest to an integer. -/
def clamped (n : Int) : Int := max smallest (min largest n)

/-- Is the integer a number? -/
def isNumber (n : Int) : Bool := smallest ≤ n && n ≤ largest

/-- Is the character a blank? -/
def isBlank (c : Char) : Bool := c ∈ [' ', '\t', '\n', '\r', '\x0b', '\x0c']

/-- The value of a digit in a base of at most sixteen. -/
def digit? (base : Nat) (c : Char) : Option Nat :=
  let d :=
    if c.isDigit then some (c.toNat - 48)
    else if 'a' ≤ c ∧ c ≤ 'f' then some (c.toNat - 87)
    else if 'A' ≤ c ∧ c ≤ 'F' then some (c.toNat - 55)
    else none
  d.filter (· < base)

/-- What has been read at the front of a text. -/
structure Reading where
  /-- The integer; zero if there is none. -/
  value : Int
  rest : Octets
  found : Bool
  deriving DecidableEq, Repr

/-- The digits at the front of a text in a base, as a number, and what follows them. -/
def digits (base : Nat) : Nat → Octets → Nat × Octets
  | n, [] => (n, [])
  | n, c :: cs =>
    match digit? base c with
    | some d => digits base (n * base + d) cs
    | none => (n, c :: cs)

/-- The base that digits are in, and the digits. -/
def baseOf : Octets → Nat × Octets
  | '0' :: x :: c :: cs =>
    if (x = 'x' ∨ x = 'X') ∧ (digit? 16 c).isSome then (16, c :: cs) else (8, '0' :: x :: c :: cs)
  | '0' :: cs => (8, '0' :: cs)
  | cs => (10, cs)

/-- Reads an integer without a sign. -/
def unsigned (ownBase : Bool) (cs : Octets) : Option (Nat × Octets) :=
  let (base, ds) := if ownBase then baseOf cs else (10, cs)
  match ds.head?.bind (digit? base) with
  | some _ => some (digits base 0 ds)
  | none => none

/-- Reads an integer at the front of a text. -/
def read (ownBase : Bool) (text : Octets) : Reading :=
  let cs := text.dropWhile isBlank
  let (negative, ds) := match cs with
    | '-' :: ds => (true, ds)
    | '+' :: ds => (false, ds)
    | ds => (false, ds)
  match unsigned ownBase ds with
  | some (n, rest) => ⟨if negative then -(n : Int) else n, rest, true⟩
  | none => ⟨0, text, false⟩

/-- The number that all of a text stands for, blanks around it apart. -/
def whole? (ownBase : Bool) (text : Octets) : Option Int :=
  let r := read ownBase text
  if r.found ∧ r.rest.all isBlank ∧ isNumber r.value then some r.value else none

/-- A decimal integer as bytes. -/
def text (n : Int) : Octets := (integerText n).toList

end CompilerFuzz.Host.Number
