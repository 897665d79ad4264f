/-
  CompilerFuzz.CommandLine.Arguments

  The commands of the program and their options. An option may be given once on each
  level; where both levels take it, the inner one counts.
-/
import CompilerFuzz.CommandLine.Grammar
import CompilerFuzz.Files.Path
import CompilerFuzz.Triage.Dialect
import CompilerFuzz.Triage.Render

namespace CompilerFuzz.CommandLine

open CompilerFuzz.Files CompilerFuzz.Text CompilerFuzz.Triage

/-! ## What can be asked for -/

/-- The options of both levels. -/
structure CommonOptions where
  config : Option Path
  logLevel : Option String
  deriving DecidableEq, Repr

/-- A generator policy by its name. -/
inductive PolicyName
  | abort
  | skip
  | retry
  deriving DecidableEq, Repr

/-- The options of a campaign; what is not given is taken from the settings. -/
structure FuzzOptions where
  /-- The time budget in seconds. -/
  seconds : Option UInt64
  pass : Option String
  level : Option UInt8
  policy : Option PolicyName
  /-- Extra attempts, where the policy is to retry. -/
  retries : Option UInt32
  dir : Option Path
  quiet : Bool
  deriving DecidableEq, Repr

/-- The options of a triage. -/
structure TriageOptions where
  log : Path
  dialect : Dialect
  color : ColorMode
  deriving DecidableEq, Repr

/-- What the program can do. -/
inductive Command
  | fuzz (options : FuzzOptions)
  | triage (options : TriageOptions)
  deriving DecidableEq, Repr

/-- A command line that was understood. -/
structure Arguments where
  config : Option Path
  logLevel : Option String
  command : Command
  deriving DecidableEq, Repr

/-- What a command line asks for. -/
inductive Request
  | perform (a : Arguments)
  | notice (n : Notice)
  deriving DecidableEq, Repr

/-! ## Values of options -/

/-- A path; the empty text is none. -/
def pathValue? (text : String) : Option Path :=
  if text = "" then none else some text

/-- A number of 64 bits. -/
def word64Value? (text : String) : Option Nat :=
  match text.toList with
  | '+' :: digits => readNumeral? maxWord64 digits
  | digits => readNumeral? maxWord64 digits

/-- A number from zero to `limit`, which may be written with a sign. -/
def smallValue? (limit : Nat) (text : String) : Option Nat :=
  match text.toList with
  | '+' :: digits => readNumeral? limit digits
  -- behind a minus only zero is in range
  | '-' :: digits => readNumeral? 0 digits
  | digits => readNumeral? limit digits

/-- The value that a name stands for. -/
def namedValue? {α : Type} (names : List (String × α)) (text : String) : Option α :=
  names.lookup text

/-- Fills a field that is still empty with a value, if there is one. -/
def fill {α : Type} (field value : Option α) : Option (Option α) :=
  match field, value with
  | none, some v => some (some v)
  | _, _ => none

/-- Raises a flag that is still down. -/
def raise (flag : Bool) : Option Bool :=
  if flag then none else some true

/-! ## Grammars -/

/-- No common option given. -/
def CommonOptions.blank : CommonOptions := ⟨none, none⟩

/-- The options of both levels. -/
def CommonOptions.choices : List (Choice CommonOptions) :=
  [ ⟨"config", some 'c', .valued fun text o =>
      (fill o.config (pathValue? text)).map fun v => { o with config := v }⟩,
    ⟨"log-level", some 'l', .valued fun text o =>
      (fill o.logLevel (some text)).map fun v => { o with logLevel := v }⟩,
    ⟨"help", some 'h', .notice .help⟩ ]

/-- The names of the commands. -/
def commandNames : List String := ["fuzz", "triage"]

/-- The word that asks for help on a command. -/
def helpCommand : String := "help"

/-- The words before a command. -/
def outerGrammar : Grammar CommonOptions where
  choices := CommonOptions.choices ++ [⟨"version", some 'V', .notice .version⟩]
  operand _ _ := none
  isCommand word := (helpCommand :: commandNames).contains word

/-- What has been read of a campaign's words. -/
structure FuzzWords where
  common : CommonOptions
  options : FuzzOptions

/-- No option given. -/
def FuzzOptions.blank : FuzzOptions := ⟨none, none, none, none, none, none, false⟩

/-- The names of the policies. -/
def PolicyName.names : List (String × PolicyName) :=
  [("abort", .abort), ("skip", .skip), ("retry", .retry)]

/-- The options of a campaign. -/
def FuzzOptions.choices : List (Choice FuzzOptions) :=
  [ ⟨"time", some 't', .valued fun text o =>
      (fill o.seconds ((word64Value? text).map UInt64.ofNat)).map fun v => { o with seconds := v }⟩,
    ⟨"single", some 's', .valued fun text o =>
      (fill o.pass (some text)).map fun v => { o with pass := v }⟩,
    ⟨"optlevel", some 'o', .valued fun text o =>
      (fill o.level ((smallValue? 255 text).map UInt8.ofNat)).map fun v => { o with level := v }⟩,
    ⟨"on-generator-failure", none, .valued fun text o =>
      (fill o.policy (namedValue? PolicyName.names text)).map fun v => { o with policy := v }⟩,
    ⟨"retries", none, .valued fun text o =>
      (fill o.retries ((smallValue? maxWord32 text).map UInt32.ofNat)).map
        fun v => { o with retries := v }⟩,
    ⟨"workdir", none, .valued fun text o =>
      (fill o.dir (pathValue? text)).map fun v => { o with dir := v }⟩,
    ⟨"quiet", some 'q', .flag fun o => (raise o.quiet).map fun v => { o with quiet := v }⟩ ]

/-- The words after `fuzz`. -/
def fuzzGrammar : Grammar FuzzWords where
  choices :=
    CommonOptions.choices.map (Choice.within FuzzWords.common fun c w => { w with common := c })
      ++ FuzzOptions.choices.map
          (Choice.within FuzzWords.options fun o w => { w with options := o })
  operand _ _ := none
  isCommand _ := false

/-- What has been read of a triage's words. -/
structure TriageWords where
  common : CommonOptions
  log : Option Path
  dialect : Option Dialect
  noColor : Bool

/-- The names of the dialects. -/
def dialectNames : List (String × Dialect) := [("tagged", .tagged), ("checker", .checker)]

/-- The words after `triage`. -/
def triageGrammar : Grammar TriageWords where
  choices :=
    CommonOptions.choices.map (Choice.within TriageWords.common fun c w => { w with common := c })
      ++ [ ⟨"dialect", none, .valued fun text w =>
            (fill w.dialect (namedValue? dialectNames text)).map fun v => { w with dialect := v }⟩,
          ⟨"no-color", none, .flag fun w => (raise w.noColor).map fun v => { w with noColor := v }⟩ ]
  operand text w := (fill w.log (pathValue? text)).map fun v => { w with log := v }
  isCommand _ := false

/-! ## Whole command lines -/

/-- The arguments of a command with what was given before it and after it. -/
def Arguments.make (outer inner : CommonOptions) (command : Command) : Arguments where
  config := inner.config.or outer.config
  logLevel := inner.logLevel.or outer.logLevel
  command := command

/-- Reads the words after `fuzz`. -/
def readFuzz (outer : CommonOptions) (words : List String) : Option Request :=
  match fuzzGrammar.read ⟨.blank, .blank⟩ words with
  | .complete w => some (.perform (.make outer w.common (.fuzz w.options)))
  | .notice n => some (.notice n)
  | .command .. | .refused => none

/-- Reads the words after `triage`. A log must be named. -/
def readTriage (outer : CommonOptions) (words : List String) : Option Request :=
  match triageGrammar.read ⟨.blank, none, none, false⟩ words with
  | .complete w =>
    w.log.map fun log =>
      .perform (.make outer w.common
        (.triage ⟨log, w.dialect.getD .tagged, if w.noColor then .plain else .ansi⟩))
  | .notice n => some (.notice n)
  | .command .. | .refused => none

/-- Reads the words after `help`: at most the name of one command. -/
def readHelp : List String → Option Request
  | [] => some (.notice .help)
  | [name] => if (helpCommand :: commandNames).contains name then some (.notice .help) else none
  | _ => none

/-- Reads a command line; `none` if it is refused. A command must be named. -/
def Request.read? (words : List String) : Option Request :=
  match outerGrammar.read .blank words with
  -- the words have ended before a command was named
  | .complete _ | .refused => none
  | .notice n => some (.notice n)
  | .command outer name rest =>
    if name = "fuzz" then readFuzz outer rest
    else if name = "triage" then readTriage outer rest
    else readHelp rest

end CompilerFuzz.CommandLine
