/-
  CompilerFuzz.Host.Shell.Cursor

  A place in a script that is being read: what is left of it, the number of its line, a token
  that was put back, and the documents that stand in the script. A script that cannot be read
  has a fault on some line.
-/
import CompilerFuzz.Host.Shell.Syntax

namespace CompilerFuzz.Host

/-! ## Tokens -/

/-- What the operator of a redirection asks for. -/
inductive Pointer
  | file (opening : Opening)
  | duplicate
  /-- A document that stands in the script, with or without the tabs before its lines. -/
  | document (stripsTabs : Bool)
  deriving DecidableEq, Repr

/-- What scripts are made of. -/
inductive Token
  /-- The end of the script. -/
  | finish
  | newline
  | operator (text : String)
  | keyword (text : String)
  | word (w : Word)
  | redirection (descriptor : Nat) (pointer : Pointer)

namespace Token

/-- The keywords. -/
def keywords : List String :=
  ["!", "case", "do", "done", "elif", "else", "esac", "fi", "for", "if", "in", "then", "until",
    "while", "\x7b", "\x7d"]

/-- What a token is called in a complaint. -/
def label : Token → String
  | .finish => "end of file"
  | .newline => "newline"
  | .operator s => "\"" ++ s ++ "\""
  | .keyword s => "\"" ++ s ++ "\""
  | .word _ => "word"
  | .redirection .. => "redirection"

/-- Can a list of commands end before the token? -/
def endsList : Token → Bool
  | .finish => true
  | .operator s => s ∈ [")", ";;"]
  | .keyword s => s ∈ ["do", "done", "elif", "else", "esac", "fi", "then", "\x7d"]
  | .newline | .word _ | .redirection .. => false

/-- A word that is a keyword, as such. -/
def asKeyword : Token → Token
  | .word w =>
    match w.plainText? with
    | some cs => if String.ofList cs ∈ keywords then .keyword (String.ofList cs) else .word w
    | none => .word w
  | t => t

/-- Is the token this operator? -/
def isOperator (s : String) : Token → Bool
  | .operator o => o = s
  | _ => false

/-- Is the token this keyword? -/
def isKeyword (s : String) : Token → Bool
  | .keyword k => k = s
  | _ => false

/-- Is the token the end of a line? -/
def isNewline : Token → Bool
  | .newline => true
  | _ => false

end Token

/-! ## Faults -/

/-- Why a script cannot be read. -/
structure Fault where
  line : Nat
  message : Octets
  deriving DecidableEq, Repr

/-! ## Documents -/

/-- A document whose lines are still to come. -/
structure Awaited where
  number : Nat
  /-- The line that ends it. -/
  mark : Octets
  stripsTabs : Bool
  /-- Does its text stand for itself, without expansions? -/
  plain : Bool
  deriving DecidableEq, Repr

/-- The documents that scripts hold, latest first. The number of a document tells how many
    there were before it. -/
structure Documents where
  texts : List (Nat × Word)
  count : Nat

namespace Documents

/-- No documents. -/
def none : Documents := ⟨[], 0⟩

/-- The text of a document. -/
def text (ds : Documents) (number : Nat) : Word := (ds.texts.lookup number).getD []

end Documents

/-! ## The cursor -/

/-- A place in a script. -/
structure Cursor where
  rest : Octets
  line : Nat
  /-- A token that has been put back. -/
  pushed : Option Token
  /-- The documents that start after this line. -/
  awaited : List Awaited
  documents : Documents
  /-- More than the length of the script. -/
  limit : Nat

/-- The start of a script that begins on a line. -/
def Cursor.start (script : Octets) (line : Nat) (documents : Documents) : Cursor where
  rest := script
  line := line
  pushed := Option.none
  awaited := []
  documents := documents
  limit := script.length + 2

/-- A step in reading a script. -/
abbrev Parser (α : Type) := StateT Cursor (Except Fault) α

namespace Parser

/-- The script cannot be read. -/
def fail {α : Type} (message : Octets) : Parser α := do
  throw ⟨(← get).line, message⟩

/-- The script cannot be read, for a reason in words. -/
def failWith {α : Type} (message : String) : Parser α :=
  fail (Octets.ofText ("Syntax error: " ++ message))

/-- A token stands where it cannot. -/
def unexpected {α : Type} (t : Token) : Parser α :=
  failWith (t.label ++ " unexpected")

/-- A token stands in the place of another one. -/
def expected {α : Type} (found wanted : Token) : Parser α :=
  failWith (found.label ++ " unexpected (expecting " ++ wanted.label ++ ")")

/-! ## Characters -/

/-- The next character. -/
def peek : Parser (Option Char) := return (← get).rest.head?

/-- Steps over a character. -/
def advance : Parser Unit :=
  modify fun c =>
    match c.rest with
    | [] => c
    | d :: rest => { c with rest := rest, line := if d = '\n' then c.line + 1 else c.line }

/-- A text without newlines after backslashes at its front, and their number. -/
def joinedLines : Octets → Octets × Nat
  | '\\' :: '\n' :: rest =>
    let r := joinedLines rest
    (r.1, r.2 + 1)
  | cs => (cs, 0)

/-- Joins the next line to this one where a backslash ends it. -/
def join : Parser Unit :=
  modify fun c =>
    let r := joinedLines c.rest
    if r.2 = 0 then c else { c with rest := r.1, line := c.line + r.2 }

/-- The next character after joining lines. -/
def look : Parser (Option Char) := do
  join
  peek

/-- Steps over a character if it is next. -/
def take? (d : Char) : Parser Bool := do
  if (← look) = some d then
    advance
    return true
  else return false

/-- Steps over the characters at the front that satisfy a test. -/
def takeWhile (p : Char → Bool) : (fuel : Nat) → Parser Octets
  | 0 => return []
  | fuel + 1 => do
    match ← look with
    | some c =>
      if p c then
        advance
        return c :: (← takeWhile p fuel)
      else return []
    | none => return []

/-! ## Tokens put back -/

/-- Puts a token back. -/
def putBack (t : Token) : Parser Unit :=
  modify fun c => { c with pushed := some t }

/-- Takes the token that has been put back. -/
def putBackToken : Parser Token := do
  let t := (← get).pushed
  modify fun c => { c with pushed := none }
  return t.getD .finish

end Parser

end CompilerFuzz.Host
