/-
  CompilerFuzz.Toml.Written

  The written form of a document: tables one after another, a blank line between them, one
  entry a line. Each string takes the first form that needs no escape, in the order of
  the rules of `Quotation.choose`; a list of several strings takes one line for each.
-/
import CompilerFuzz.Text.Numeral
import CompilerFuzz.Toml.Quotation

namespace CompilerFuzz.Toml

open CompilerFuzz.Text

/-! ## Strings -/

/-- Must `c` be escaped wherever it stands? -/
def isControl (c : Char) : Bool :=
  (c < ' ' && c != '\t' && c != '\n') || c == '\x7f'

/-- Do three of these quotes stand in a row? -/
def hasTriple (quote : Char) : List Char → Bool
  | a :: b :: c :: rest => (a == quote && b == quote && c == quote) || hasTriple quote (b :: c :: rest)
  | _ => false

/-- The form in which a string is written. -/
def Quotation.choose (s : List Char) : Quotation :=
  if s.any isControl then if '\n' ∈ s then .multiBasic else .basic
  else if '\\' ∉ s ∧ '"' ∉ s ∧ '\n' ∉ s then .basic
  else if '\'' ∉ s ∧ '\n' ∉ s then .literal
  else if '\\' ∉ s ∧ hasTriple '"' s = false then .multiBasic
  else if hasTriple '\'' s = false then .multiLiteral
  else if '\n' ∈ s then .multiBasic
  else .basic

/-- The upper-case hexadecimal digit of `n`. -/
def upperHexDigit (n : Nat) : Char :=
  if n < 10 then Char.ofNat (48 + n) else Char.ofNat (55 + n)

/-- How one character stands in a basic string. -/
def escapeChar (c : Char) : List Char :=
  if c = '\x08' then ['\\', 'b']
  else if c = '\t' then ['\\', 't']
  else if c = '\n' then ['\\', 'n']
  else if c = '\x0c' then ['\\', 'f']
  else if c = '\r' then ['\\', 'r']
  else if c = '"' then ['\\', '"']
  else if c = '\\' then ['\\', '\\']
  else if isControl c then
    ['\\', 'u', '0', '0', upperHexDigit (c.toNat / 16), upperHexDigit (c.toNat % 16)]
  else [c]

/-- How a text stands in a multi-line basic string after `run` quotes: newlines and quotes
    as they are, but every third quote of a run escaped. -/
def escapeLines (run : Nat) : List Char → List Char
  | [] => []
  | c :: rest =>
    if c = '"' then
      if run = 2 then '\\' :: '"' :: escapeLines 0 rest else '"' :: escapeLines (run + 1) rest
    else if c = '\n' then '\n' :: escapeLines 0 rest
    else escapeChar c ++ escapeLines 0 rest

/-- A multi-line form opens with a newline if the text has one. -/
def openingNewline (s : List Char) : List Char :=
  if '\n' ∈ s then ['\n'] else []

/-- A string in a given form. -/
def Quotation.write (form : Quotation) (s : List Char) : List Char :=
  match form with
  | .basic => '"' :: s.flatMap escapeChar ++ ['"']
  | .literal => '\'' :: s ++ ['\'']
  | .multiBasic => ['"', '"', '"'] ++ openingNewline s ++ escapeLines 0 s ++ ['"', '"', '"']
  | .multiLiteral => ['\'', '\'', '\''] ++ openingNewline s ++ s ++ ['\'', '\'', '\'']

/-- A string as it is written. -/
def writeString (s : String) : List Char :=
  (Quotation.choose s.toList).write s.toList

/-! ## Entries and tables -/

/-- The values that are written: strings, natural numbers, lists of strings. -/
inductive Entry
  | string (s : String)
  | number (n : Nat)
  | strings (items : List String)
  deriving DecidableEq, Repr

/-- One item of a list on a line of its own. -/
def writeItem (s : String) : List Char :=
  [' ', ' ', ' ', ' '] ++ writeString s ++ [',', '\n']

/-- A value as it is written. -/
def Entry.write : Entry → List Char
  | .string s => writeString s
  | .number n => numeral n
  | .strings [] => ['[', ']']
  | .strings [s] => '[' :: writeString s ++ [']']
  | .strings items => ['[', '\n'] ++ items.flatMap writeItem ++ [']']

/-- A table to be written: the path in its header and its entries. All keys are bare words. -/
structure Section where
  path : List String
  entries : List (String × Entry)
  deriving DecidableEq, Repr

/-- One entry on its line. -/
def writeEntry (e : String × Entry) : List Char :=
  e.1.toList ++ [' ', '=', ' '] ++ e.2.write ++ ['\n']

/-- A table with its header. -/
def Section.write (s : Section) : List Char :=
  '[' :: (String.intercalate "." s.path).toList ++ [']', '\n'] ++ s.entries.flatMap writeEntry

/-- The written form of a document. -/
def write (sections : List Section) : List Char :=
  ((sections.map Section.write).intersperse ['\n']).flatten

end CompilerFuzz.Toml
