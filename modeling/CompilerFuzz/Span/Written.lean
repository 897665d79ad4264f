/-
  CompilerFuzz.Span.Written

  The written form of a span: counts with units, largest unit first, such as
  `1h 30m`. The writer uses each unit at most once and leaves out zero counts; the
  reader takes any sequence of counts and units and adds them up, and a count may
  have a decimal fraction that comes out even in the unit's resolution.
-/
import CompilerFuzz.Power
import CompilerFuzz.Span.Basic
import CompilerFuzz.Text.Blank

namespace CompilerFuzz

open CompilerFuzz.Text

/-- The units of time that a written span may use. -/
inductive TimeUnit
  | nanosecond
  | microsecond
  | millisecond
  | second
  | minute
  | hour
  | day
  | week
  /-- A twelfth of a year. -/
  | month
  /-- A year of 365.25 days. -/
  | year
  deriving DecidableEq, Repr

namespace TimeUnit

/-- All units. -/
def all : List TimeUnit :=
  [.nanosecond, .microsecond, .millisecond, .second, .minute, .hour, .day, .week, .month, .year]

/-- The names of a unit; case counts. -/
def names : TimeUnit → List String
  | .nanosecond => ["nanos", "nsec", "ns"]
  | .microsecond => ["usec", "us", "µs"]
  | .millisecond => ["millis", "msec", "ms"]
  | .second => ["seconds", "second", "secs", "sec", "s"]
  | .minute => ["minutes", "minute", "min", "mins", "m"]
  | .hour => ["hours", "hour", "hr", "hrs", "h"]
  | .day => ["days", "day", "d"]
  | .week => ["weeks", "week", "wk", "wks", "w"]
  | .month => ["months", "month", "M"]
  | .year => ["years", "year", "yr", "yrs", "y"]

/-- The unit with a given name. -/
def ofName? (name : List Char) : Option TimeUnit :=
  all.find? fun u => u.names.any fun n => n.toList == name

/-- One unit as whole seconds and nanoseconds; one of the two is zero. -/
def size : TimeUnit → Nat × Nat
  | .nanosecond => (0, 1)
  | .microsecond => (0, 1000)
  | .millisecond => (0, 1000000)
  | .second => (1, 0)
  | .minute => (60, 0)
  | .hour => (3600, 0)
  | .day => (86400, 0)
  | .week => (604800, 0)
  | .month => (2630016, 0)
  | .year => (31557600, 0)

/-- The resolution in which a fraction of the unit must come out even: nanoseconds up
    to a minute, whole seconds above. A nanosecond has no fraction. -/
def fractionSize? : TimeUnit → Option (Nat × Nat)
  | .nanosecond => none
  | .second => some (0, 1000000000)
  | .minute => some (0, 60000000000)
  | u => some u.size

end TimeUnit

namespace Span

/-! ## Writing -/

/-- The counts of a span, largest unit first; each is below one of the next larger
    unit that is written. -/
def counts (s : Span) : List (Nat × TimeUnit) :=
  let inYear := s.secs % 31557600
  let inMonth := inYear % 2630016
  let inDay := inMonth % 86400
  [ (s.secs / 31557600, .year), (inYear / 2630016, .month), (inMonth / 86400, .day),
    (inDay / 3600, .hour), (inDay % 3600 / 60, .minute), (inDay % 60, .second),
    (s.nanos / 1000000, .millisecond), (s.nanos / 1000 % 1000, .microsecond),
    (s.nanos % 1000, .nanosecond) ]

/-- The name under which a count of the unit is written. -/
def countName (n : Nat) : TimeUnit → String
  | .nanosecond => "ns"
  | .microsecond => "us"
  | .millisecond => "ms"
  | .second => "s"
  | .minute => "m"
  | .hour => "h"
  | .day => if n = 1 then "day" else "days"
  | .week => if n = 1 then "week" else "weeks"
  | .month => if n = 1 then "month" else "months"
  | .year => if n = 1 then "year" else "years"

/-- One count as it is written. -/
def writeCount (c : Nat × TimeUnit) : List Char :=
  numeral c.1 ++ (countName c.1 c.2).toList

/-- The written form of a span. -/
def write (s : Span) : List Char :=
  match s.counts.filter fun c => c.1 ≠ 0 with
  | [] => ['0', 's']
  | cs => (cs.map writeCount).intersperse [' '] |>.flatten

/-- The written form of a span, as a text. -/
def text (s : Span) : String :=
  String.ofList s.write

/-! ## Reading -/

/-- May `c` stand in the name of a unit? -/
def isUnitChar (c : Char) : Bool :=
  c.isAlpha || c == 'µ'

/-- Splits off the digits at the front of a text, skipping blanks between them. -/
def spanDigits : List Char → List Char × List Char
  | [] => ([], [])
  | c :: cs =>
    if c.isDigit then
      let (ds, rest) := spanDigits cs
      (c :: ds, rest)
    -- `1 0s` is ten seconds
    else if isBlank c then spanDigits cs
    else ([], c :: cs)

theorem length_spanDigits_le (cs : List Char) : (spanDigits cs).2.length ≤ cs.length := by
  induction cs with
  | nil => simp [spanDigits]
  | cons c cs ih =>
    unfold spanDigits
    split
    · exact Nat.le_succ_of_le ih
    · split
      · exact Nat.le_succ_of_le ih
      · exact Nat.le_refl _

/-- A fraction: the digits after the point and the power of ten below them. -/
structure Fraction where
  numerator : Nat
  denominator : Nat
  deriving DecidableEq, Repr

/-- The fraction with the given digits: there is at least one, and both its numbers fit
    into a word. -/
def fraction? (digits : List Char) : Option Fraction :=
  let num := numeralValue digits
  let den := powerOfTen digits.length
  if digits ≠ [] ∧ num ≤ maxWord64 ∧ den ≤ maxWord64 then some ⟨num, den⟩ else none

/-- Adds `n` times the unit. -/
def addWhole? (s : Span) (n : Nat) (u : TimeUnit) : Option Span :=
  let (secs, nanos) := u.size
  if n * secs ≤ maxWord64 ∧ n * nanos ≤ maxWord64 then s.add? (n * secs) (n * nanos) else none

/-- Adds a fraction of the unit, if it comes out even. -/
def addFraction? (s : Span) (f : Fraction) (u : TimeUnit) : Option Span :=
  match u.fractionSize? with
  | none => none
  | some (secs, nanos) =>
    let secs := f.numerator * secs
    -- multiplied out before it is divided, so both products must fit into a word
    let nanos := f.numerator * nanos
    if secs ≤ maxWord64 ∧ nanos ≤ maxWord64
        ∧ secs % f.denominator = 0 ∧ nanos % f.denominator = 0 then
      s.add? (secs / f.denominator) (nanos / f.denominator)
    else none

/-- Adds one term: a count, perhaps a fraction, and the name of a unit. -/
def addTerm? (s : Span) (n : Nat) (f : Option Fraction) (name : List Char) : Option Span :=
  match TimeUnit.ofName? name with
  | none => none
  | some u =>
    match s.addWhole? n u with
    | none => none
    | some s =>
      match f with
      | none => some s
      | some f => s.addFraction? f u

/-- One term as it is read: the count, the fraction, the name of the unit, the rest. -/
structure Term where
  count : Nat
  fraction : Option Fraction
  name : List Char
  rest : List Char
  deriving DecidableEq, Repr

/-- Splits off the name of a unit; a blank after it goes with it. -/
def unitName? (count : Nat) (f : Option Fraction) (cs : List Char) : Option Term :=
  let name := cs.takeWhile isUnitChar
  match cs.dropWhile isUnitChar with
  | [] => some ⟨count, f, name, []⟩
  | c :: rest =>
    -- the next term may follow without a blank, and the reader looks at its digit again
    if c.isDigit then some ⟨count, f, name, c :: rest⟩
    else if isBlank c then some ⟨count, f, name, rest⟩
    else none

/-- Reads the term that starts with the digit `d`. -/
def term? (d : Char) (cs : List Char) : Option Term :=
  let (ds, rest) := spanDigits cs
  let count := numeralValue (d :: ds)
  if count ≤ maxWord64 then
    match rest with
    | '.' :: rest =>
      let (fs, rest) := spanDigits rest
      match fraction? fs with
      | none => none
      | some f => unitName? count (some f) rest
    | rest => unitName? count none rest
  else none

theorem length_dropWhile_le (p : Char → Bool) (cs : List Char) :
    (cs.dropWhile p).length ≤ cs.length :=
  (List.dropWhile_sublist p).length_le

theorem length_rest_of_unitName? {n : Nat} {f : Option Fraction} {cs : List Char} {t : Term}
    (h : unitName? n f cs = some t) : t.rest.length ≤ cs.length := by
  have hle := length_dropWhile_le isUnitChar cs
  unfold unitName? at h
  split at h
  · cases h; simp
  · next c rest e =>
    rw [e] at hle
    split at h
    · cases h; exact hle
    · split at h
      · cases h; exact Nat.le_of_succ_le hle
      · cases h

theorem length_rest_of_term? {d : Char} {cs : List Char} {t : Term} (h : term? d cs = some t) :
    t.rest.length ≤ cs.length := by
  have hle := length_spanDigits_le cs
  unfold term? at h
  split at h
  next ds rest e =>
  rw [e] at hle
  simp only at h
  split at h
  · split at h
    · next rest' =>
      have hle' := length_spanDigits_le rest'
      split at h
      · cases h
      · exact Nat.le_trans (length_rest_of_unitName? h)
          (Nat.le_trans hle' (Nat.le_of_succ_le hle))
    · exact Nat.le_trans (length_rest_of_unitName? h) hle
  · cases h

/-- Reads the remaining terms and adds them to `s`. -/
def readTerms? (s : Span) (cs : List Char) : Option Span :=
  match _h : trimStart cs with
  | [] => some s
  | d :: rest =>
    if d.isDigit then
      match _ht : term? d rest with
      | none => none
      | some t =>
        match s.addTerm? t.count t.fraction t.name with
        | none => none
        | some s => readTerms? s t.rest
    else none
termination_by cs.length
decreasing_by
  have h₁ := length_dropWhile_le isBlank cs
  have h₂ := length_rest_of_term? _ht
  simp only [trimStart] at _h
  rw [_h] at h₁
  exact Nat.lt_of_le_of_lt h₂ h₁

/-- Reads a written span: `0`, or at least one term. -/
def read? (cs : List Char) : Option Span :=
  -- zero is the only span without a unit
  if cs = ['0'] then some zero
  else if trimStart cs = [] then none
  else readTerms? zero cs

end Span

end CompilerFuzz
