/-
  CompilerFuzz.Host.Shell.Token

  How words and tokens are read from a script. What a character means depends on the zone that
  it stands in: outside of quotes, between quotes, inside braces, in arithmetic or in a
  document. Scripts inside words are read by a parser that is given.
-/
import CompilerFuzz.Host.Shell.Cursor
import CompilerFuzz.Text.Numeral

namespace CompilerFuzz.Host

open CompilerFuzz.Text

namespace Parser

/-! ## Zones -/

/-- Where in a word a character stands. -/
inductive Zone
  /-- Outside of quotes; a blank or an operator ends it. -/
  | plain
  /-- Between braces that are not quoted; a brace ends it. -/
  | braces
  /-- Between double quotes. -/
  | quotes
  /-- Between braces that are quoted. -/
  | quotedBraces
  /-- Between the double parentheses of arithmetic. -/
  | arithmetic
  /-- In a document. -/
  | document
  deriving DecidableEq, Repr

namespace Zone

/-- Is everything in the zone quoted? -/
def isQuoted : Zone → Bool
  | .plain | .braces => false
  | .quotes | .quotedBraces | .arithmetic | .document => true

/-- The characters that a backslash quotes in a zone where it does not quote all of them. -/
def escaped : Zone → List Char
  | .quotes => ['\\', '`', '$', '"']
  | .quotedBraces => ['\\', '`', '$', '"', '\x7d']
  | .plain | .braces | .arithmetic | .document => ['\\', '`', '$']

/-- The complaint about a zone that has no end, where it needs one. -/
def unended? : Zone → Option String
  | .plain | .document => none
  | .braces => some "Missing '\x7d'"
  | .quotes | .quotedBraces => some "Unterminated quoted string"
  | .arithmetic => some "Missing '))'"

end Zone

/-- Characters that end a word outside of quotes. -/
def endsWord (c : Char) : Bool :=
  c ∈ [' ', '\t', '\n', ';', '&', '|', '<', '>', '(', ')']

/-- The rest of a word that starts with characters. -/
def pushText (cs : Octets) (quoted : Bool) (w : Word) : Word := Word.push (.text cs quoted) w

/-! ## Quotation -/

/-- Reads up to a single quote. -/
def singleQuoted : (fuel : Nat) → Parser Octets
  | 0 => return []
  | fuel + 1 => do
    match ← peek with
    | none => failWith "Unterminated quoted string"
    | some c =>
      advance
      if c = '\'' then return [] else return c :: (← singleQuoted fuel)

/-- Reads up to a backquote. Inside, a backslash quotes itself, a backquote and a dollar sign,
    and between double quotes also a double quote. -/
def backquoted (inQuotes : Bool) : (fuel : Nat) → Parser Octets
  | 0 => return []
  | fuel + 1 => do
    match ← look with
    | none => failWith "EOF in backquote substitution"
    | some '`' =>
      advance
      return []
    | some '\\' =>
      advance
      match ← peek with
      | none => return '\\' :: (← backquoted inQuotes fuel)
      | some d =>
        advance
        let rest ← backquoted inQuotes fuel
        -- other backslashes are left for the script inside
        if d ∈ ['\\', '`', '$'] ∨ (inQuotes ∧ d = '"') then return d :: rest
        else return '\\' :: d :: rest
    | some c =>
      advance
      return c :: (← backquoted inQuotes fuel)

/-! ## Expansions -/

/-- A parser of scripts inside words; the token that ends a script is put back. -/
abbrev Inner := Parser (Option Command)

/-- Reads a script between a parenthesis that has been read and its partner. -/
def parenthesized (inner : Inner) : Parser Command := do
  let outer := (← get).awaited
  -- the documents of the line around the parentheses begin behind that line
  modify fun c => { c with awaited := [] }
  let script ← inner
  let t ← putBackToken
  if ¬ t.isOperator ")" then expected t (.operator ")")
  modify fun c => { c with awaited := outer }
  return script.getD .nothing

/-- Reads a script that is a text of its own, with lines of its own. -/
def separately (inner : Inner) (script : Octets) : Parser Command := do
  let here ← get
  set { Cursor.start script 1 here.documents with limit := here.limit }
  let command ← inner
  let there ← get
  set { here with documents := there.documents }
  return command.getD .nothing

/-- Reads the name of a parameter, if one is next; inside braces it may have more than one
    digit. -/
def parameterName? (braced : Bool) : Parser (Option Octets) := do
  match ← look with
  | none => return none
  | some c =>
    if isNameStart c then return some (← takeWhile isNameChar (← get).limit)
    else if c.isDigit then
      if braced then return some (← takeWhile Char.isDigit (← get).limit)
      else
        advance
        return some [c]
    else if isSpecial c then
      advance
      return some [c]
    else return none

/-- What a character between a name and a word asks for. -/
def useOf? (null : Bool) (w : Word) : Char → Option Use
  | '-' => some (.default null w)
  | '=' => some (.assign null w)
  | '?' => some (.require null w)
  | '+' => some (.replace null w)
  | _ => none

/-- Reads what follows the name of a parameter between braces. `word` reads a zone up to its
    end. -/
def useOfParameter (word : Zone → Parser Word) (quoted : Bool) : Parser Use := do
  let around : Zone := if quoted then .quotedBraces else .braces
  match ← look with
  | some '\x7d' =>
    advance
    return .plain
  | some ':' =>
    advance
    match ← look with
    | some d =>
      match useOf? true [] d with
      | none =>
        let _ ← word around
        return .unknown
      | some _ =>
        advance
        return (useOf? true (← word around) d).getD .unknown
    | none =>
      let _ ← word around
      return .unknown
  | some '#' =>
    advance
    let longest ← take? '#'
    return .trim false longest (← word .braces)
  | some '%' =>
    advance
    let longest ← take? '%'
    return .trim true longest (← word .braces)
  | some d =>
    match useOf? false [] d with
    | none =>
      let _ ← word around
      return .unknown
    | some _ =>
      advance
      return (useOf? false (← word around) d).getD .unknown
  | none =>
    let _ ← word around
    return .unknown

/-- Reads a parameter between braces, the first of which has been read. A number sign before a
    name asks for a length. -/
def bracedParameter (word : Zone → Parser Word) (quoted : Bool) : Parser Part := do
  let around : Zone := if quoted then .quotedBraces else .braces
  let named (name : Octets) : Parser Part :=
    return .parameter name (← useOfParameter word quoted) quoted
  if (← look) = some '#' then
    advance
    -- `#` may ask for a length, or be the number of operands itself
    let start ← get
    let name ← parameterName? true
    match name, ← look with
    | some name, some '\x7d' =>
      advance
      return .parameter name .length quoted
    | some name, _ =>
      if (name.head?.map fun c => isNameStart c || c.isDigit).getD false then
        let _ ← word around
        return .parameter name .unknown quoted
      else
        set start
        named ['#']
    | none, _ => named ['#']
  else
    match ← parameterName? true with
    | some name => named name
    | none =>
      let _ ← word around
      return .parameter [] .unknown quoted

/-- Reads what follows a dollar sign, if that makes an expansion. -/
def expansion? (inner : Inner) (word : Zone → Parser Word) (quoted : Bool) :
    Parser (Option Part) := do
  match ← look with
  | some '(' =>
    advance
    if ← take? '(' then return some (.arithmetic (← word .arithmetic) quoted)
    else return some (.output (← parenthesized inner) quoted)
  | some '\x7b' =>
    advance
    return some (← bracedParameter word quoted)
  | _ =>
    match ← parameterName? false with
    | some name => return some (.parameter name .plain quoted)
    | none => return none

/-! ## Words -/

/-- Reads the rest of a word in a zone, and what ends the zone. `depth` counts parentheses in
    arithmetic. The fuel is more than the length of the script. -/
def wordIn (inner : Inner) :
    (fuel : Nat) → Zone → (depth : Nat) → Parser Word
  | 0, _, _ => return []
  | fuel + 1, zone, depth => do
    let quoted := zone.isQuoted
    let more (cs : Octets) (quoted : Bool) : Parser Word :=
      return pushText cs quoted (← wordIn inner fuel zone depth)
    match ← look with
    | none =>
      match zone.unended? with
      | some message => failWith message
      | none => return []
    | some c =>
      if c = '\\' then
        advance
        match ← peek with
        | none => more ['\\'] true
        | some d =>
          advance
          if quoted && !zone.escaped.contains d then more ['\\', d] true else more [d] true
      else if c = '$' then
        advance
        match ← expansion? inner (fun z => wordIn inner fuel z 0) quoted with
        | some part => return Word.push part (← wordIn inner fuel zone depth)
        | none => more ['$'] quoted
      else if c = '`' then
        advance
        let script ← backquoted quoted (← get).limit
        let command ← separately inner script
        return .output command quoted :: (← wordIn inner fuel zone depth)
      else if c = '\'' ∧ !quoted then
        advance
        let cs ← singleQuoted (← get).limit
        more cs true
      else if c = '"' ∧ !quoted then
        advance
        let w ← wordIn inner fuel .quotes 0
        -- two quotes with nothing in between still make a field
        let w := if w.isEmpty then [.text [] true] else w
        return w.foldr Word.push (← wordIn inner fuel zone depth)
      else
        match zone with
        | .plain => if endsWord c then return [] else advance; more [c] false
        | .braces =>
          advance
          if c = '\x7d' then return [] else more [c] false
        | .quotes =>
          advance
          if c = '"' then return [] else more [c] true
        | .quotedBraces =>
          advance
          if c = '\x7d' then return []
          else if c = '"' then wordIn inner fuel zone depth
          else more [c] true
        | .arithmetic =>
          advance
          if c = '(' then
            return pushText ['('] true (← wordIn inner fuel zone (depth + 1))
          else if c = ')' ∧ 0 < depth then
            return pushText [')'] true (← wordIn inner fuel zone (depth - 1))
          else if c = ')' then
            -- one parenthesis alone does not end arithmetic
            if ← take? ')' then return [] else more [')'] true
          else if c = '"' then wordIn inner fuel zone depth
          else more [c] true
        | .document =>
          advance
          more [c] true

/-- Reads the text of a document with its expansions. -/
def documentWord (inner : Inner) : Parser Word := do
  wordIn inner (← get).limit .document 0

/-! ## Documents -/

/-- The lines up to the one that ends a document, and what follows that line. -/
def documentLines (mark : Octets) (stripsTabs : Bool) :
    (fuel : Nat) → Octets → Octets × Octets × Nat
  | 0, cs => ([], cs, 0)
  | _ + 1, [] => ([], [], 0)
  | fuel + 1, cs =>
    let line := (cs.takeWhile (· ≠ '\n'))
    let rest := cs.dropWhile (· ≠ '\n')
    let line := if stripsTabs then line.dropWhile (· == '\t') else line
    -- without this line the document goes on to the end of the script
    if line = mark then ([], rest.drop 1, if rest = [] then 0 else 1)
    else
      match rest with
      | [] => (line, [], 0)
      | _ :: rest =>
        let r := documentLines mark stripsTabs fuel rest
        (line ++ '\n' :: r.1, r.2.1, r.2.2 + 1)

/-- Reads a document. -/
def readDocument (inner : Inner) (a : Awaited) : Parser Unit := do
  let here ← get
  let (text, rest, lines) := documentLines a.mark a.stripsTabs here.limit here.rest
  let word ←
    -- a quoted mark keeps the text as it is
    if a.plain then pure [.text text true]
    else do
      set { here with rest := text, pushed := none, awaited := [] }
      documentWord inner
  let documents := (← get).documents
  set { here with
    rest := rest
    line := here.line + lines
    documents := { documents with texts := (a.number, word) :: documents.texts } }

/-- Reads the documents that start here. -/
def readDocuments (inner : Inner) : Parser Unit := do
  let awaited := (← get).awaited
  modify fun c => { c with awaited := [] }
  awaited.forM (readDocument inner)

/-- Reads the line that will end a document, and whether any of it is quoted. -/
def documentMark : (fuel : Nat) → Parser (Octets × Bool)
  | 0 => return ([], false)
  | fuel + 1 => do
    let more (cs : Octets) (quoted : Bool) : Parser (Octets × Bool) := do
      let r ← documentMark fuel
      return (cs ++ r.1, quoted || r.2)
    match ← look with
    | none => return ([], false)
    | some c =>
      if endsWord c then return ([], false)
      else
        advance
        if c = '\'' then more (← singleQuoted (← get).limit) true
        else if c = '"' then
          let cs ← takeWhile (· ≠ '"') (← get).limit
          if ← take? '"' then more cs true else failWith "Unterminated quoted string"
        else if c = '\\' then
          match ← peek with
          | some d =>
            advance
            more [d] true
          | none => more ['\\'] true
        else more [c] false

/-! ## Tokens -/

/-- Steps over blanks and a comment. -/
def skipBlanks : (fuel : Nat) → Parser Unit
  | 0 => return
  | fuel + 1 => do
    match ← look with
    | some ' ' | some '\t' =>
      advance
      skipBlanks fuel
    | some '#' =>
      modify fun c => { c with rest := c.rest.dropWhile (· ≠ '\n') }
    | _ => return

/-- Reads what follows the `>` of a redirection. -/
def outputPointer : Parser Pointer := do
  if ← take? '>' then return .file .append
  else if ← take? '&' then return .duplicate
  else return .file .output

/-- Reads what follows the `<` of a redirection. -/
def inputPointer : Parser Pointer := do
  if ← take? '<' then
    return .document (← take? '-')
  else if ← take? '&' then return .duplicate
  else if ← take? '>' then return .file .both
  else return .file .input

/-- Reads a redirection of a given descriptor, or of the one that its operator is for. -/
def redirection (descriptor : Option Nat) : Parser Token := do
  if ← take? '>' then return .redirection (descriptor.getD 1) (← outputPointer)
  else
    advance
    return .redirection (descriptor.getD 0) (← inputPointer)

/-- The descriptor that a word names right before a redirection. -/
def descriptorOf? : Word → Option Nat
  | [.text [d] false] => if d.isDigit then some (digitValue d) else none
  | _ => none

/-- Is the character the start of a redirection? -/
def startsRedirection (c : Option Char) : Bool := c = some '<' || c = some '>'

/-- Reads an operator of one character, or of two if the second one follows. -/
def operator (c : Char) (second : Option Char) : Parser Token := do
  advance
  match second with
  | some d =>
    if ← take? d then return .operator (String.ofList [c, d])
    else return .operator (String.ofList [c])
  | none => return .operator (String.ofList [c])

/-- Reads a token from the script. -/
def freshToken (inner : Inner) : Parser Token := do
  skipBlanks (← get).limit
  match ← look with
  | none => return .finish
  | some '\n' =>
    advance
    return .newline
  | some '&' => operator '&' (some '&')
  | some '|' => operator '|' (some '|')
  | some ';' => operator ';' (some ';')
  | some '(' => operator '(' none
  | some ')' => operator ')' none
  | some _ =>
    let w ← wordIn inner (← get).limit .plain 0
    if startsRedirection (← look) then
      match w, descriptorOf? w with
      | [], _ => redirection none
      | _, some d => redirection (some d)
      | _, none => return .word w
    else return .word w

/-- The next token: one that was put back, or one from the script. -/
def anyToken (inner : Inner) : Parser Token := do
  match (← get).pushed with
  | some t =>
    modify fun c => { c with pushed := none }
    return t
  | none => freshToken inner

/-- The next token after newlines, and after the documents that follow each of these. -/
def afterNewlines (inner : Inner) : (fuel : Nat) → Parser Token
  | 0 => return .finish
  | fuel + 1 => do
    let t ← anyToken inner
    if t.isNewline then
      readDocuments inner
      afterNewlines inner fuel
    else return t

/-- What is known in the place of a token. -/
structure Place where
  newlines : Bool
  keywords : Bool
  deriving DecidableEq, Repr

namespace Place

/-- Amid the words of a command. -/
def word : Place := ⟨false, false⟩

/-- Where a keyword may stand. -/
def keyword : Place := ⟨false, true⟩

/-- Where a keyword may stand on a later line. -/
def line : Place := ⟨true, true⟩

end Place

/-- The next token in a place. -/
def token (inner : Inner) (place : Place) : Parser Token := do
  let t ← if place.newlines then afterNewlines inner (← get).limit else anyToken inner
  return if place.keywords then t.asKeyword else t

end Parser

end CompilerFuzz.Host
