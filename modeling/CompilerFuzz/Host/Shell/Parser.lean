/-
  CompilerFuzz.Host.Shell.Parser

  How commands are read from a script. Every construct is read by a parser of its own that is
  given a parser for what stands inside it; `read` ties them together. A script is read line
  by line, so that what stands before a fault still runs.
-/
import CompilerFuzz.Host.Shell.Token

namespace CompilerFuzz.Host

open CompilerFuzz.Text

namespace Parser

/-- Where a list of commands stands. -/
inductive ListPlace
  /-- At the top of a script; a newline ends it. -/
  | line
  /-- Inside a command; there is at least one command in it. -/
  | body
  /-- Where there may be no command at all. -/
  | optional
  deriving DecidableEq, Repr

/-- What is read. -/
inductive Goal
  | list (place : ListPlace)
  | command
  deriving DecidableEq, Repr

/-- A parser of what stands inside a construct. -/
abbrev Nested := Goal → Parser (Option Command)

namespace Nested

/-- The parser of scripts inside words. -/
def inner (nested : Nested) : Inner := nested (.list .optional)

/-- The parser of a list inside a command. -/
def body (nested : Nested) : Parser Command := return (← nested (.list .body)).getD .nothing

/-- The next token. -/
def next (nested : Nested) : Parser Token := token nested.inner .word

/-- The next token where keywords are known. -/
def nextOrKeyword (nested : Nested) : Parser Token := token nested.inner .keyword

/-- The next token after newlines, where keywords are known. -/
def nextLine (nested : Nested) : Parser Token := token nested.inner .line

/-- Reads a keyword that has to be there. -/
def keyword (nested : Nested) (k : String) : Parser Unit := do
  let t ← nested.next
  if ¬ t.isKeyword k then expected t (.keyword k)

end Nested

/-! ## Redirections -/

/-- Reads the target of a redirection. -/
def redirectionTarget (nested : Nested) (descriptor : Nat) : Pointer → Parser Redirection
  | .document stripsTabs => do
    skipBlanks (← get).limit
    if ((← look).map endsWord).getD true then unexpected (← nested.next)
    else
      let (mark, quoted) ← documentMark (← get).limit
      let number := (← get).documents.count
      modify fun c => { c with
        documents := { c.documents with count := number + 1 }
        awaited := c.awaited ++ [⟨number, mark, stripsTabs, quoted⟩] }
      return .document descriptor number
  | .file opening => do
    match ← nested.next with
    | .word w => return .file descriptor opening w
    | t => unexpected t
  | .duplicate => do
    match ← nested.next with
    | .word w => return .duplicate descriptor w
    | t => unexpected t

/-- Reads redirections from a token on. What follows one of them is no keyword. -/
def redirections (nested : Nested) : (fuel : Nat) → Token → Parser (List Redirection)
  | 0, _ => return []
  | fuel + 1, t => do
    match t with
    | .redirection descriptor pointer =>
      let r ← redirectionTarget nested descriptor pointer
      return r :: (← redirections nested fuel (← nested.next))
    | t =>
      putBack t
      return []

/-! ## Simple commands -/

/-- The parts of a simple command. -/
structure SimpleParts where
  assigned : List (Octets × Word)
  words : List Word
  redirections : List Redirection

/-- The name and the value of a word that is an assignment. -/
def assignment? (w : Word) : Option (Octets × Word) :=
  match w with
  | .text cs false :: rest =>
    let name := cs.takeWhile (· ≠ '=')
    match cs.dropWhile (· ≠ '=') with
    | _ :: value =>
      if isName name then some (name, if value = [] then rest else .text value false :: rest)
      else none
    | [] => none
  | _ => none

/-- The commands of the shell that no function can replace. -/
def specialNames : List String :=
  [".", ":", "break", "continue", "eval", "exec", "exit", "export", "local", "readonly", "return",
    "set", "shift", "trap", "unset"]

/-- Reads the body of a function after the name and a parenthesis. -/
def definition (nested : Nested) (name : Word) : Parser Command := do
  let t ← nested.next
  if ¬ t.isOperator ")" then expected t (.operator ")")
  match name.plainText? with
  | none => failWith "Bad function name"
  | some name =>
    if ¬ isName name ∨ String.ofList name ∈ specialNames then failWith "Bad function name"
    else
      let line := (← get).line
      putBack (← nested.nextLine)
      return .define line name ((← nested .command).getD .nothing)

/-- Reads the words of a simple command; a definition of a function looks like one at first. -/
def simpleParts (nested : Nested) :
    (fuel : Nat) → SimpleParts → Parser (SimpleParts ⊕ Command)
  | 0, p => return .inl p
  | fuel + 1, p => do
    match ← nested.next with
    | .word w =>
      match if p.words.isEmpty then assignment? w else none with
      | some a => simpleParts nested fuel { p with assigned := p.assigned ++ [a] }
      | none => simpleParts nested fuel { p with words := p.words ++ [w] }
    | .redirection descriptor pointer =>
      let r ← redirectionTarget nested descriptor pointer
      simpleParts nested fuel { p with redirections := p.redirections ++ [r] }
    | t =>
      match p.words with
      | [name] =>
        if t.isOperator "(" ∧ p.assigned.isEmpty ∧ p.redirections.isEmpty then
          return .inr (← definition nested name)
        else
          putBack t
          return .inl p
      | _ =>
        putBack t
        return .inl p

/-- Reads a simple command or the definition of a function. -/
def simple (nested : Nested) : Parser Command := do
  let line := (← get).line
  match ← simpleParts nested (← get).limit ⟨[], [], []⟩ with
  | .inl p => return .simple line p.assigned p.words p.redirections
  | .inr c => return c

/-! ## Compound commands -/

/-- Reads the branches of a choice after a test. -/
def choice (nested : Nested) : (fuel : Nat) → Parser Command
  | 0 => return .nothing
  | fuel + 1 => do
    let test ← nested.body
    nested.keyword "then"
    let yes ← nested.body
    let t ← nested.next
    if t.isKeyword "elif" then return .choice test yes (← choice nested fuel)
    else if t.isKeyword "else" then return .choice test yes (← nested.body)
    else
      putBack t
      return .choice test yes .nothing

/-- Reads a loop after its first keyword. -/
def loop (nested : Nested) (whileSuccess : Bool) : Parser Command := do
  let test ← nested.body
  nested.keyword "do"
  return .loop whileSuccess test (← nested.body)

/-- Reads words, and the token after them. -/
def wordsBefore (nested : Nested) : (fuel : Nat) → Parser (List Word × Token)
  | 0 => return ([], .finish)
  | fuel + 1 => do
    match ← nested.next with
    | .word w =>
      let r ← wordsBefore nested fuel
      return (w :: r.1, r.2)
    | t => return ([], t)

/-- Reads a loop over words after its first keyword. Without words it goes over the operands
    of the shell. -/
def eachWord (nested : Nested) (line : Nat) : Parser Command := do
  let name ←
    match ← nested.next with
    | .word w =>
      match w.plainText? with
      | some cs => if isName cs then pure cs else failWith "Bad for loop variable"
      | none => failWith "Bad for loop variable"
    | _ => failWith "Bad for loop variable"
  let t ← nested.nextLine
  let words ←
    if t.isKeyword "in" then
      let (words, t) ← wordsBefore nested (← get).limit
      if t.isNewline ∨ t.isOperator ";" then
        if t.isNewline then readDocuments nested.inner
        pure words
      else unexpected t
    else
      if ¬ t.isOperator ";" then putBack t
      pure [[.parameter ['@'] .plain true]]
  let t ← nested.nextLine
  if ¬ t.isKeyword "do" then expected t (.keyword "do")
  return .each line name words (← nested.body)

/-- The word that a token was read as. -/
def wordOfToken : Token → Word
  | .word w => w
  | .keyword k => [.text k.toList false]
  | _ => []

/-- Reads the patterns of a branch from the first one on, up to the parenthesis after them. -/
def patterns (nested : Nested) : (fuel : Nat) → Token → Parser (List Word)
  | 0, _ => return []
  | fuel + 1, first => do
    let t ← nested.next
    if t.isOperator "|" then
      return wordOfToken first :: (← patterns nested fuel (← nested.next))
    else if t.isOperator ")" then return [wordOfToken first]
    else expected t (.operator ")")

/-- Reads the branches of a selection. -/
def branches (nested : Nested) : (fuel : Nat) → Parser (List (List Word × Command))
  | 0 => return []
  | fuel + 1 => do
    let t ← nested.nextLine
    if t.isKeyword "esac" then return []
    else
      let first ← if t.isOperator "(" then nested.next else pure t
      let ps ← patterns nested (← get).limit first
      let body := (← nested (.list .optional)).getD .nothing
      let t ← nested.nextLine
      if t.isKeyword "esac" then return [(ps, body)]
      else if t.isOperator ";;" then return (ps, body) :: (← branches nested fuel)
      else expected t (.operator ";;")

/-- Reads a selection after its first keyword. -/
def selection (nested : Nested) (line : Nat) : Parser Command := do
  match ← nested.next with
  | .word w =>
    let t ← nested.nextLine
    if ¬ t.isKeyword "in" then expected t (.keyword "in")
    return .select line w (← branches nested (← get).limit)
  | t => expected t (.word [])

/-- Reads the end of a compound command, and the redirections that apply to all of it. -/
def closed (nested : Nested) (line : Nat) (finish : Option Token) (c : Command) :
    Parser Command := do
  match finish with
  | some wanted =>
    let t ← nested.next
    if t.label ≠ wanted.label then expected t wanted
  | none => pure ()
  match ← redirections nested (← get).limit (← nested.nextOrKeyword), c with
  | [], c => return c
  | rs, .subshell line c _ => return .subshell line c rs
  | rs, c => return .redirected line c rs

/-- Reads a command. -/
def command (nested : Nested) : Parser Command := do
  let line := (← get).line
  let finish (k : String) (c : Command) : Parser Command :=
    closed nested line (some (.keyword k)) c
  match ← nested.nextOrKeyword with
  | .keyword "if" => finish "fi" (← choice nested (← get).limit)
  | .keyword "while" => finish "done" (← loop nested true)
  | .keyword "until" => finish "done" (← loop nested false)
  | .keyword "for" => finish "done" (← eachWord nested line)
  | .keyword "case" => closed nested line none (← selection nested line)
  | .keyword "\x7b" => finish "\x7d" (← nested.body)
  | .operator "(" =>
    closed nested line (some (.operator ")")) (.subshell line (← nested.body) [])
  | .word w =>
    putBack (.word w)
    simple nested
  | .redirection descriptor pointer =>
    putBack (.redirection descriptor pointer)
    simple nested
  | t => unexpected t

/-! ## Lists -/

/-- Reads the commands of a pipeline after its first one. -/
def stages (nested : Nested) : (fuel : Nat) → Parser (List Command)
  | 0 => return []
  | fuel + 1 => do
    let t ← nested.next
    if t.isOperator "|" then
      putBack (← nested.nextLine)
      let c ← command nested
      return c :: (← stages nested fuel)
    else
      putBack t
      return []

/-- Reads a pipeline. -/
def pipeline (nested : Nested) : Parser Command := do
  let t ← nested.nextOrKeyword
  let negated := t.isKeyword "!"
  if ¬ negated then putBack t
  let c ← command nested
  let c ← match ← stages nested (← get).limit with
    | [] => pure c
    | cs => pure (.pipeline (c :: cs))
  return if negated then .negated c else c

/-- Reads pipelines that hang on one another, after the first one. -/
def chained (nested : Nested) : (fuel : Nat) → Command → Parser Command
  | 0, c => return c
  | fuel + 1, c => do
    let t ← nested.next
    if t.isOperator "&&" ∨ t.isOperator "||" then
      putBack (← nested.nextLine)
      let d ← pipeline nested
      chained nested fuel (if t.isOperator "&&" then .both c d else .either c d)
    else
      putBack t
      return c

/-- A command that runs beside the shell. -/
def inBackground : Command → Command
  | .redirected line c rs => .background line c rs
  | c => .background 0 c []

/-- Reads a list of commands after those that were read. -/
def listFrom (nested : Nested) (place : ListPlace) :
    (fuel : Nat) → Option Command → Parser (Option Command)
  | 0, before => return before
  | fuel + 1, before => do
    let inLine := place = .line
    let t ← if inLine then nested.nextOrKeyword else nested.nextLine
    match t with
    | .newline =>
      readDocuments nested.inner
      return before
    | .finish =>
      readDocuments nested.inner
      putBack .finish
      return before
    | t =>
      putBack t
      if (place = .optional ∨ (place = .body ∧ before.isSome)) ∧ t.endsList then return before
      else
        let c ← chained nested (← get).limit (← pipeline nested)
        let t ← nested.next
        let c := if t.isOperator "&" then inBackground c else c
        let all := match before with
          | none => c
          | some b => .sequence b c
        if t.isOperator "&" ∨ t.isOperator ";" then listFrom nested place fuel (some all)
        else
          match t with
          | .finish =>
            readDocuments nested.inner
            putBack .finish
            return some all
          | .newline =>
            putBack .newline
            listFrom nested place fuel (some all)
          | t =>
            if inLine then unexpected t
            else
              putBack t
              return some all

/-- Reads what is wanted with a parser for what stands inside it. -/
def readWith (nested : Nested) : Goal → Parser (Option Command)
  | .list place => do listFrom nested place (← get).limit none
  | .command => return some (← command nested)

/-- Reads what is wanted. The fuel bounds how deep constructs stand inside one another. -/
def read : (fuel : Nat) → Goal → Parser (Option Command)
  | 0, _ => failWith "Out of space"
  | fuel + 1, goal => readWith (read fuel) goal

end Parser

namespace Cursor

/-- Is the script at its end? -/
def atEnd (c : Cursor) : Bool :=
  match c.pushed with
  | some .finish => true
  | _ => false

/-- Reads the commands of a line, which may have none. -/
def readLine (c : Cursor) : Except Fault (Option Command × Cursor) :=
  (Parser.read c.limit (.list .line)).run { c with pushed := none }

end Cursor

end CompilerFuzz.Host
