/-
  CompilerFuzz.Toml.Scalar

  Values without parts: strings, and the words for booleans, integers, numbers with a
  fraction or an exponent, and dates and times.
-/
import CompilerFuzz.Power
import CompilerFuzz.Text.Numeral
import CompilerFuzz.Toml.Quotation
import CompilerFuzz.Toml.Value

namespace CompilerFuzz.Toml

open CompilerFuzz.Text

/-! ## Digits -/

/-- Digits without the underscores between them; an underscore stands between two digits. -/
def digits? (isDigit : Char → Bool) : List Char → Option (List Char)
  | [] => none
  | [c] => if isDigit c then some [c] else none
  | c :: '_' :: rest => if isDigit c then (digits? isDigit rest).map (c :: ·) else none
  | c :: rest => if isDigit c then (digits? isDigit rest).map (c :: ·) else none

/-- The digits of a decimal whole number: no zero in front of others. -/
def decimalDigits? (cs : List Char) : Option (List Char) :=
  match digits? Char.isDigit cs with
  | some ['0'] => some ['0']
  | some ('0' :: _) => none
  | ds => ds

/-- Splits off a sign; the answer says whether it is a minus. -/
def splitSign : List Char → Bool × List Char
  | '-' :: rest => (true, rest)
  | '+' :: rest => (false, rest)
  | cs => (false, cs)

/-! ## Integers -/

/-- The largest integer; the least is one further from zero. -/
def maxInteger : Nat := 0x7FFFFFFFFFFFFFFF

/-- The number that digits of a base denote. -/
def valueInBase (base : Nat) (ds : List Char) : Nat :=
  ds.foldl (fun n c => n * base + (hexDigit? c).getD 0) 0

/-- A whole number in base 2, 8 or 16, without a sign. -/
def based? (base : Nat) (cs : List Char) : Option Int :=
  match digits? (fun c => (hexDigit? c).any (· < base)) cs with
  | some ds => if valueInBase base ds ≤ maxInteger then some (valueInBase base ds) else none
  | none => none

/-- A decimal whole number. -/
def decimal? (cs : List Char) : Option Int :=
  let (negative, body) := splitSign cs
  match decimalDigits? body with
  | none => none
  | some ds =>
    let n := numeralValue ds
    -- there is one more integer below zero than above
    if negative then if n ≤ maxInteger + 1 then some (-(n : Int)) else none
    else if n ≤ maxInteger then some n else none

/-- An integer word. -/
def integer? : List Char → Option Int
  | '0' :: 'x' :: rest => based? 16 rest
  | '0' :: 'o' :: rest => based? 8 rest
  | '0' :: 'b' :: rest => based? 2 rest
  | cs => decimal? cs

/-! ## Fractions and exponents -/

/-- The least number that no double-precision number is nearest to: half a step beyond the
    largest of them. -/
def halfPastLargest : Nat := powerOfTwo 1024 - powerOfTwo 970

/-- Is `digits` times the given power of ten beyond the largest double-precision number,
    after rounding? -/
def overflows (digits : List Char) (exponent : Int) : Bool :=
  let significant := digits.dropWhile (· == '0')
  let places : Int := significant.length + exponent
  -- only at 309 places do the digits decide, so the powers below stay small
  if significant.isEmpty || places ≤ 308 then false
  else if 310 ≤ places then true
  else if 0 ≤ exponent then
    halfPastLargest ≤ numeralValue significant * powerOfTen exponent.toNat
  else halfPastLargest * powerOfTen (-exponent).toNat ≤ numeralValue significant

/-- Is `c` the mark of an exponent? -/
def isExponentMark (c : Char) : Bool :=
  c == 'e' || c == 'E'

/-- The exponent at the end of a number; zero if there is none. -/
def exponent? : List Char → Option Int
  | [] => some 0
  | c :: rest =>
    if isExponentMark c then
      let (negative, body) := splitSign rest
      (digits? Char.isDigit body).map fun ds =>
        if negative then -(numeralValue ds : Int) else numeralValue ds
    else none

/-- Does the word denote a number with a fraction, an exponent or both, that is not too
    large? -/
def isFraction (cs : List Char) : Bool :=
  let (negative, body) := splitSign cs
  let whole := body.takeWhile fun c => c != '.' && !isExponentMark c
  let after := body.dropWhile fun c => c != '.' && !isExponentMark c
  -- without a point or an exponent the word is no fraction
  match decimalDigits? whole, after with
  | none, _ | _, [] => false
  | some ds, '.' :: rest =>
    match digits? Char.isDigit (rest.takeWhile fun c => !isExponentMark c),
        exponent? (rest.dropWhile fun c => !isExponentMark c) with
    | some fs, some e => negative || !overflows (ds ++ fs) (e - fs.length)
    | _, _ => false
  | some ds, rest =>
    match exponent? rest with
    | some e => negative || !overflows ds e
    | none => false

/-- Does the word denote a floating-point number? -/
def isFloat (cs : List Char) : Bool :=
  let body := (splitSign cs).2
  body == ['i', 'n', 'f'] || body == ['n', 'a', 'n'] || isFraction cs

/-! ## Dates and times -/

/-- A number of two digits. -/
def twoDigits? (a b : Char) : Option Nat :=
  if a.isDigit ∧ b.isDigit then some (numeralValue [a, b]) else none

/-- The days of a month. -/
def daysInMonth (year month : Nat) : Nat :=
  if month = 2 then
    if year % 4 = 0 ∧ (year % 100 ≠ 0 ∨ year % 400 = 0) then 29 else 28
  else if month = 4 ∨ month = 6 ∨ month = 9 ∨ month = 11 then 30
  else 31

/-- What follows a date at the front. -/
def afterDate? : List Char → Option (List Char)
  | y₁ :: y₂ :: y₃ :: y₄ :: '-' :: m₁ :: m₂ :: '-' :: d₁ :: d₂ :: rest =>
    match twoDigits? y₁ y₂, twoDigits? y₃ y₄, twoDigits? m₁ m₂, twoDigits? d₁ d₂ with
    | some century, some year, some month, some day =>
      if 1 ≤ month ∧ month ≤ 12 ∧ 1 ≤ day ∧ day ≤ daysInMonth (century * 100 + year) month then
        some rest
      else none
    | _, _, _, _ => none
  | _ => none

/-- What follows a fraction of a second at the front, if there is one. -/
def afterFraction? : List Char → Option (List Char)
  | '.' :: c :: rest => if c.isDigit then some (rest.dropWhile Char.isDigit) else none
  | ['.'] => none
  | cs => some cs

/-- What follows a time of day at the front. A leap second may be the sixtieth. -/
def afterTime? : List Char → Option (List Char)
  | h₁ :: h₂ :: ':' :: m₁ :: m₂ :: ':' :: s₁ :: s₂ :: rest =>
    match twoDigits? h₁ h₂, twoDigits? m₁ m₂, twoDigits? s₁ s₂ with
    | some hour, some minute, some second =>
      if hour ≤ 23 ∧ minute ≤ 59 ∧ second ≤ 60 then afterFraction? rest else none
    | _, _, _ => none
  | _ => none

/-- Is this nothing, or the offset of a time zone? -/
def isOffset : List Char → Bool
  | [] => true
  | ['Z'] | ['z'] => true
  | [sign, h₁, h₂, ':', m₁, m₂] =>
    (sign == '+' || sign == '-') && (twoDigits? h₁ h₂).any (· ≤ 23) && (twoDigits? m₁ m₂).any (· ≤ 59)
  | _ => false

/-- Is this a time of day, perhaps with an offset? -/
def isZonedTime (cs : List Char) : Bool :=
  (afterTime? cs).any isOffset

/-- Does the word denote a date, a time of day, or both? -/
def isDateTime (cs : List Char) : Bool :=
  match afterDate? cs with
  | some [] => true
  | some (c :: rest) => (c == 'T' || c == 't') && isZonedTime rest
  | none => afterTime? cs == some []

/-! ## Words -/

/-- May `c` stand in a word? -/
def isWordChar (c : Char) : Bool :=
  c.isAlphanum || c == '+' || c == '-' || c == '.' || c == '_' || c == ':'

/-- The value that a whole word denotes. -/
def ofWord? (word : List Char) : Option Value :=
  if word = ['t', 'r', 'u', 'e'] then some (.boolean true)
  else if word = ['f', 'a', 'l', 's', 'e'] then some (.boolean false)
  else
    -- a word of digits alone is an integer before it is anything else
    match integer? word with
    | some n => some (.integer n)
    | none =>
      if isFloat word then some (.float (String.ofList word))
      else if isDateTime word then some (.dateTime (String.ofList word))
      else none

/-- The word at the front of a text. -/
def word? (cs : List Char) : Option (Front (List Char) cs) :=
  match _h : cs.dropWhile isWordChar with
  | rest =>
    if _hlt : rest.length < cs.length then some ⟨cs.takeWhile isWordChar, rest, _hlt⟩ else none

/-- The time of day that follows a date after one blank. -/
def timeAfter? : (cs : List Char) → Option (Front (List Char) cs)
  | ' ' :: rest =>
    match word? rest with
    | some time => if time.value.head?.any Char.isDigit then some time.cons else none
    | none => none
  | _ => none

/-- The value that a word at the front denotes. One blank may part a date from its time. -/
def wordValue? (cs : List Char) : Option (Front Value cs) :=
  match word? cs with
  | none => none
  | some day =>
    match timeAfter? day.rest with
    | some time =>
      if afterDate? day.value = some [] then
        if isZonedTime time.value then
          some ((time.map fun t => .dateTime (String.ofList (day.value ++ ' ' :: t))).within
            (Nat.le_of_lt day.shorter))
        else none
      else (ofWord? day.value).map fun v => day.map fun _ => v
    | none => (ofWord? day.value).map fun v => day.map fun _ => v

/-- A value without parts. -/
def scalar? (cs : List Char) : Option (Front Value cs) :=
  match quoted? cs with
  | some r => some (r.map fun s => .string (String.ofList s))
  | none => wordValue? cs

end CompilerFuzz.Toml
