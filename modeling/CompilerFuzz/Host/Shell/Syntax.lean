/-
  CompilerFuzz.Host.Shell.Syntax

  Scripts of the command shell.
-/
import CompilerFuzz.Host.System

namespace CompilerFuzz.Host

/-! ## Names -/

/-- Can a name start with the character? -/
def isNameStart (c : Char) : Bool := c.isAlpha || c == '_'

/-- Can a name hold the character? -/
def isNameChar (c : Char) : Bool := c.isAlphanum || c == '_'

/-- Is the text the name of a binding? -/
def isName : Octets → Bool
  | [] => false
  | c :: cs => isNameStart c && cs.all isNameChar

/-- Parameters named by one character that is no digit. -/
def isSpecial (c : Char) : Bool := c ∈ ['!', '#', '$', '*', '-', '?', '@']

/-! ## Words and commands -/

mutual

/-- A part of a word. What comes of a quoted part is not split into fields and matches only
    itself. -/
inductive Part
  | text (cs : Octets) (quoted : Bool)
  | parameter (name : Octets) (use : Use) (quoted : Bool)
  | arithmetic (word : List Part) (quoted : Bool)
  /-- What a script writes. -/
  | output (script : Command) (quoted : Bool)

/-- What becomes of the value of a parameter. With `null` an empty value counts as none. -/
inductive Use
  | plain
  /-- The number of its characters. -/
  | length
  /-- No use that there is. -/
  | unknown
  /-- A word in place of a missing value. -/
  | default (null : Bool) (word : List Part)
  /-- The same, and the parameter gets that value. -/
  | assign (null : Bool) (word : List Part)
  /-- A missing value is an error. -/
  | require (null : Bool) (word : List Part)
  /-- A word in place of a value. -/
  | replace (null : Bool) (word : List Part)
  /-- The value without what a pattern matches at one of its ends. -/
  | trim (atEnd longest : Bool) (pattern : List Part)

/-- What a redirection does to a file descriptor. -/
inductive Redirection
  | file (descriptor : Nat) (opening : Opening) (path : List Part)
  | duplicate (descriptor : Nat) (source : List Part)
  /-- Reads a document that stands in the script; documents are numbered. -/
  | document (descriptor : Nat) (number : Nat)

/-- Commands. Those that may complain know the line that they stand on. -/
inductive Command
  | nothing
  /-- Assignments and a call. -/
  | simple (line : Nat) (assigned : List (Octets × List Part)) (words : List (List Part))
      (redirections : List Redirection)
  | redirected (line : Nat) (command : Command) (redirections : List Redirection)
  | sequence (first second : Command)
  /-- The second command runs if the first succeeds. -/
  | both (first second : Command)
  /-- The second command runs if the first fails. -/
  | either (first second : Command)
  | negated (command : Command)
  | pipeline (commands : List Command)
  | background (line : Nat) (command : Command) (redirections : List Redirection)
  | subshell (line : Nat) (command : Command) (redirections : List Redirection)
  /-- Repeats the body while the test succeeds, or until it does. -/
  | loop (whileSuccess : Bool) (test body : Command)
  | choice (test yes no : Command)
  /-- Runs the body for each field of the words. -/
  | each (line : Nat) (name : Octets) (words : List (List Part)) (body : Command)
  /-- Runs the body of the first branch with a matching pattern. -/
  | select (line : Nat) (word : List Part) (branches : List (List (List Part) × Command))
  | define (line : Nat) (name : Octets) (body : Command)
  /-- The last command of a shell: a program that it calls takes the place of the shell. -/
  | final (command : Command)

end

instance : Inhabited Command := ⟨.nothing⟩

/-- A word of a script. -/
abbrev Word := List Part

/-- The text of a word that has no quotes and no expansions. -/
def Word.plainText? : Word → Option Octets
  | [] => some []
  | [.text cs false] => some cs
  | _ => none

/-- Puts a part before the parts of a word; texts that are quoted alike become one. -/
def Word.push (p : Part) (w : Word) : Word :=
  match p, w with
  | .text a q, .text b r :: rest => if q = r then .text (a ++ b) q :: rest else p :: w
  | p, w => p :: w

end CompilerFuzz.Host
