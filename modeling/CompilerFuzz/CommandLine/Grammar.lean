/-
  CompilerFuzz.CommandLine.Grammar

  How the words of a command line are read. A grammar lists the options of one level and
  says what each of them does to the answer so far. Words are read from left to right, and
  the first one that does not fit refuses the whole line.
-/

namespace CompilerFuzz.CommandLine

/-- A request for information, in place of any other work. -/
inductive Notice
  | help
  | version
  deriving DecidableEq, Repr

/-- What an option does to the answer so far; `none` if it is refused. -/
inductive Effect (α : Type)
  | flag (set : α → Option α)
  /-- The option takes a value. -/
  | valued (set : String → α → Option α)
  | notice (n : Notice)

/-- The same effect on a part of a larger answer. -/
def Effect.within {α β : Type} (get : β → α) (put : α → β → β) : Effect α → Effect β
  | .flag set => .flag fun b => (set (get b)).map fun a => put a b
  | .valued set => .valued fun text b => (set text (get b)).map fun a => put a b
  | .notice n => .notice n

/-- An option: its long name, its letter if it has one, and its effect. -/
structure Choice (α : Type) where
  long : String
  letter : Option Char
  effect : Effect α

/-- The same option of a larger answer. -/
def Choice.within {α β : Type} (get : β → α) (put : α → β → β) (o : Choice α) : Choice β :=
  ⟨o.long, o.letter, o.effect.within get put⟩

/-- The options, operands and commands of one level. -/
structure Grammar (α : Type) where
  choices : List (Choice α)
  operand : String → α → Option α
  /-- Is a word the name of a command, which ends the level? -/
  isCommand : String → Bool

/-- What the words of one level come to. -/
inductive Reading (α : Type)
  | complete (a : α)
  /-- A command was named; its own words follow. -/
  | command (a : α) (name : String) (rest : List String)
  | notice (n : Notice)
  | refused

/-- The kinds of words, by how they look. -/
inductive Word
  /-- Two dashes alone: only operands follow. -/
  | terminator
  | long (name : List Char)
  | letters (first : Char) (rest : List Char)
  /-- An operand, a value or a command; a single dash is one of them. -/
  | plain

/-- The kind of a word. -/
def Word.ofText (text : String) : Word :=
  match text.toList with
  | ['-', '-'] => .terminator
  | '-' :: '-' :: name => .long name
  | '-' :: c :: rest => .letters c rest
  | _ => .plain

/-- What a word of options comes to. -/
inductive Step (α : Type)
  | done (a : α)
  /-- The next word is the value of an option. -/
  | pending (set : String → α → Option α) (a : α)
  | notice (n : Notice)
  | refused

/-- The answer after an option, if it was accepted. -/
def Step.ofOption {α : Type} : Option α → Step α
  | some a => .done a
  | none => .refused

namespace Grammar

variable {α : Type}

/-- The effect of a long name. -/
def long? (g : Grammar α) (name : List Char) : Option (Effect α) :=
  (g.choices.find? fun o => o.long.toList == name).map Choice.effect

/-- The effect of a letter. -/
def letter? (g : Grammar α) (c : Char) : Option (Effect α) :=
  (g.choices.find? fun o => o.letter == some c).map Choice.effect

/-- Reads a long option, without its dashes. A value may follow an equals sign. -/
def readLong (g : Grammar α) (a : α) (cs : List Char) : Step α :=
  match g.long? (cs.takeWhile (· ≠ '=')), cs.dropWhile (· ≠ '=') with
  -- without an equals sign the value is the next word
  | some (.valued set), [] => .pending set a
  | some (.valued set), _ :: value => .ofOption (set (String.ofList value) a)
  | some (.flag set), [] => .ofOption (set a)
  | some (.notice n), [] => .notice n
  | _, _ => .refused

/-- Reads a run of letters. The first one that takes a value takes the rest of the run for
    it, without an equals sign in front. -/
def readLetters (g : Grammar α) (a : α) : List Char → Step α
  | [] => .done a
  | c :: cs =>
    match g.letter? c, cs with
    | some (.valued set), [] => .pending set a
    -- an equals sign is dropped, though a value may follow its letter directly
    | some (.valued set), '=' :: value => .ofOption (set (String.ofList value) a)
    | some (.valued set), value => .ofOption (set (String.ofList value) a)
    | some (.flag set), cs =>
      match set a with
      | some a => readLetters g a cs
      | none => .refused
    | some (.notice n), _ => .notice n
    | none, _ => .refused

/-- Reads words that are all operands. -/
def readOperands (g : Grammar α) : α → List String → Reading α
  | a, [] => .complete a
  | a, word :: rest =>
    match g.operand word a with
    | some a => readOperands g a rest
    | none => .refused

/-- Reads one word that is not the value of an option before it. -/
def readWord (g : Grammar α) (a : α) (word : String) : Step α :=
  match Word.ofText word with
  | .long name => g.readLong a name
  | .letters c rest => g.readLetters a (c :: rest)
  | .plain | .terminator => .ofOption (g.operand word a)

/-- Can the word be the value of the option before it? -/
def isValue (word : String) : Bool :=
  match Word.ofText word with
  | .plain => true
  | _ => false

/-- Reads the words of one level. -/
def read (g : Grammar α) (a : α) : List String → Reading α
  | [] => .complete a
  | word :: rest =>
    if g.isCommand word then .command a word rest
    else
      match Word.ofText word with
      | .terminator => g.readOperands a rest
      | _ =>
        match g.readWord a word, rest with
        | .done a, rest => read g a rest
        | .pending set a, value :: rest =>
          if isValue value then
            match set value a with
            | some a => read g a rest
            | none => .refused
          else .refused
        | .pending .., [] => .refused
        | .notice n, _ => .notice n
        | .refused, _ => .refused

end Grammar

end CompilerFuzz.CommandLine
