/-
  CompilerFuzz.Host.Shell.Expansion

  What becomes of words. Parameters, arithmetic and the output of scripts are put in their
  place; what came of them outside of quotes is cut into fields; fields that are patterns
  stand for the files that they match.
-/
import CompilerFuzz.Host.Pattern
import CompilerFuzz.Host.Shell.Arithmetic
import CompilerFuzz.Host.Shell.State

namespace CompilerFuzz.Host

open CompilerFuzz.Files CompilerFuzz.Text

/-! ## Glyphs -/

/-- A piece of an expanded word. -/
inductive Glyph
  /-- A character. A loose one may be cut away between fields. -/
  | char (c : Char) (quoted loose : Bool)
  /-- The field is there even if it has no characters. -/
  | present
  /-- A field ends. -/
  | boundary
  deriving DecidableEq, Repr

namespace Glyph

/-- Characters as glyphs. -/
def ofText (quoted loose : Bool) (cs : Octets) : List Glyph :=
  cs.map fun c => .char c quoted loose

/-- The value of an expansion as glyphs. -/
def ofValue (quoted : Bool) (cs : Octets) : List Glyph :=
  if quoted then .present :: ofText true false cs else ofText false true cs

/-- The characters of glyphs, quoted or not. -/
def marks (gs : List Glyph) : List Pattern.Mark :=
  gs.filterMap fun
    | .char c quoted _ => some (c, quoted)
    | .present => none
    | .boundary => some (' ', true)

/-- The text of glyphs. -/
def text (gs : List Glyph) : Octets := (marks gs).map Prod.fst

end Glyph

/-! ## Fields -/

/-- Fields in the making. -/
structure Fields where
  /-- The field begun, backwards. -/
  begun : Option (List Pattern.Mark)
  /-- The fields that are complete, latest first. -/
  complete : List (List Pattern.Mark)
  /-- Has a blank just ended a field? Then one separator more belongs to it. -/
  afterBlank : Bool

namespace Fields

/-- Nothing yet. -/
def none : Fields := ⟨.none, [], false⟩

/-- Ends the field begun, if there is one. -/
def close (f : Fields) : Fields :=
  match f.begun with
  | .none => f
  | some ms => ⟨.none, ms.reverse :: f.complete, f.afterBlank⟩

/-- Adds a glyph. Blanks between fields count once; any other separator ends a field, which
    may be empty. -/
def add (separators : Octets) (f : Fields) : Glyph → Fields
  | .present => ⟨some (f.begun.getD []), f.complete, false⟩
  | .boundary => { f.close with afterBlank := false }
  | .char c quoted loose =>
    if loose && separators.contains c then
      if c = ' ' ∨ c = '\t' ∨ c = '\n' then
        { f.close with afterBlank := f.begun.isSome || f.afterBlank }
      else if f.begun.isSome then { f.close with afterBlank := false }
      else if f.afterBlank then { f with afterBlank := false }
      else ⟨.none, [] :: f.complete, false⟩
    else ⟨some ((c, quoted) :: f.begun.getD []), f.complete, false⟩

/-- The fields of an expanded word. -/
def ofGlyphs (separators : Octets) (gs : List Glyph) : List (List Pattern.Mark) :=
  (gs.foldl (add separators) none).close.complete.reverse

end Fields

namespace Work

/-! ## Parameters -/

/-- The characters that set fields apart. -/
def separators : Work Octets := return (← value? "IFS".toList).getD [' ', '\t', '\n']

/-- Operands with the first separator between them. -/
def joinedOperands : Work Octets := do
  return ((← separators).take 1).intercalate (← get).operands

/-- The value of a parameter, if it has one. -/
def parameter? (name : Octets) : Work (Option Octets) := do
  let st ← get
  match name with
  | ['#'] => return some (numeral st.operands.length)
  | ['?'] => return some (numeral st.status)
  | ['$'] => return some (numeral st.leader)
  | ['!'] => return (st.ended.head?).map fun e => numeral e.1
  | ['-'] => return some st.options
  | ['@'] | ['*'] => return some (← joinedOperands)
  | cs =>
    if cs.all Char.isDigit then
      match numeralValue cs with
      | 0 => return some st.name
      | n + 1 => return st.operands[n]?
    else value? cs

/-- Is this one of the two parameters that stand for all operands? -/
def isAll (name : Octets) : Bool := name = ['@'] || name = ['*']

/-- The complaint about a parameter that has no value. -/
def unsetComplaint (name message : Octets) (null : Bool) : Octets :=
  let reason : String :=
    if null then "parameter not set or null" else "parameter not set"
  name ++ [':', ' '] ++ (if message = [] then reason.toList else message)

/-- The operands as glyphs. Between quotes they stay apart only under the name `@`, and only
    where there may be more than one field. -/
def operandGlyphs (fields quoted : Bool) (name : Octets) : Work (List Glyph) := do
  let operands := (← get).operands
  if fields && (!quoted || name = ['@']) then
    return ([Glyph.boundary].intercalate (operands.map (Glyph.ofValue quoted)))
  else return Glyph.ofValue quoted (← joinedOperands)

/-- The value of a parameter as glyphs. -/
def parameterGlyphs (fields quoted : Bool) (name : Octets) (value : Octets) :
    Work (List Glyph) :=
  if isAll name then operandGlyphs fields quoted name else return Glyph.ofValue quoted value

/-! ## Arithmetic -/

/-- The number that a variable stands for in arithmetic. -/
def numberIn (bindings : List Variable) (name : Octets) : Except Octets Int :=
  match (bindings.find? fun v => v.name = name).bind Variable.value with
  | none => .ok 0
  | some cs =>
    if cs.all Number.isBlank then .ok 0
    else
      match Number.whole? true cs with
      | some n => .ok n
      | none => .error ("Illegal number: ".toList ++ cs)

/-- The value of an arithmetic expression. -/
def arithmetic (cs : Octets) : Work Octets := do
  match Arithmetic.evaluate (numberIn (← get).bindings) cs with
  | .error trouble => fail (trouble.complaint cs)
  | .ok (n, assigned) =>
    assigned.reverse.forM fun (name, n) => assign name (Number.text n)
    return Number.text n

/-! ## Words -/

mutual

/-- The glyphs of a part. `sub` runs a script and yields its output; `fields` tells that
    there may be more than one field; in a loose word plain text may be cut as well. -/
def partGlyphs (sub : Command → Work Octets) (fields loose : Bool) : Part → Work (List Glyph)
  | .text cs quoted =>
    if quoted then return .present :: Glyph.ofText true false cs
    else return Glyph.ofText false loose cs
  | .parameter name use quoted => useGlyphs sub fields name quoted use
  | .arithmetic w quoted => do
    let text := Glyph.text (← wordGlyphs sub false false w)
    return Glyph.ofValue quoted (← arithmetic text)
  | .output script quoted => return Glyph.ofValue quoted (← sub script)

/-- The glyphs of a word. -/
def wordGlyphs (sub : Command → Work Octets) (fields loose : Bool) :
    List Part → Work (List Glyph)
  | [] => return []
  | p :: ps => return (← partGlyphs sub fields loose p) ++ (← wordGlyphs sub fields loose ps)

/-- The glyphs of a parameter in one of its uses. -/
def useGlyphs (sub : Command → Work Octets) (fields : Bool) (name : Octets) (quoted : Bool) :
    Use → Work (List Glyph)
  | .plain => do
    match ← parameter? name with
    | some value => parameterGlyphs fields quoted name value
    | none =>
      if ← hasOption 'u' then fail (unsetComplaint name [] false)
      else return Glyph.ofValue quoted []
  | .length => do
    match ← parameter? name with
    | some value => return Glyph.ofValue quoted (numeral value.length)
    | none =>
      if ← hasOption 'u' then fail (unsetComplaint name [] false)
      else return Glyph.ofValue quoted ['0']
  | .unknown => fail "Bad substitution".toList
  | .default null w => do
    let old ← parameter? name
    if old.isNone || (null && old = some []) then
      return (if quoted then [.present] else []) ++ (← wordGlyphs sub fields (!quoted) w)
    else parameterGlyphs fields quoted name (old.getD [])
  | .assign null w => do
    let old ← parameter? name
    if old.isNone || (null && old = some []) then
      let value := Glyph.text (← wordGlyphs sub false false w)
      if isName name then
        assign name value
        return Glyph.ofValue quoted value
      else fail (name ++ ": bad variable name".toList)
    else parameterGlyphs fields quoted name (old.getD [])
  | .require null w => do
    let old ← parameter? name
    if old.isNone || (null && old = some []) then
      let message := Glyph.text (← wordGlyphs sub false false w)
      fail (unsetComplaint name message null)
    else parameterGlyphs fields quoted name (old.getD [])
  | .replace null w => do
    let old ← parameter? name
    let present := if quoted then [.present] else []
    if old.isNone || (null && old = some []) then return present
    else return present ++ (← wordGlyphs sub fields (!quoted) w)
  | .trim atEnd longest pattern => do
    match ← parameter? name with
    | some value =>
      let marks := Glyph.marks (← wordGlyphs sub false false pattern)
      return Glyph.ofValue quoted (Pattern.trim atEnd longest marks value)
    | none =>
      if ← hasOption 'u' then fail (unsetComplaint name [] false)
      else return Glyph.ofValue quoted []

end

/-! ## Paths -/

/-- The pieces of a pattern between its slashes. -/
def pathPieces (ms : List Pattern.Mark) : List (List Pattern.Mark) :=
  ms.foldr (fun m ps =>
    match ps with
    | [] => [[m]]
    | p :: ps => if m.1 = '/' then [] :: p :: ps else (m :: p) :: ps) [[]]

/-- The names in a directory that a pattern can match. -/
def candidates (st : State) (directory : Octets) (ms : List Pattern.Mark) : List Octets :=
  let path := if directory = [] then ['.'] else directory
  match st.system.status st.process.directory path with
  | .ok (.directory l) =>
    let names := ['.'] :: ['.', '.'] :: (st.system.files.namesIn l).map Octets.ofText
    names.filter fun n => n.head? ≠ some '.' || (ms.head?.map Prod.fst) = some '.'
  | _ => []

/-- The paths that pieces of a pattern match below a directory. -/
def matchingPaths (st : State) : Octets → List (List Pattern.Mark) → List Octets
  | directory, [] => [directory]
  | directory, p :: rest =>
    let present (path : Octets) : Bool :=
      (st.system.status st.process.directory (if path = [] then ['.'] else path)).toOption.isSome
    let go (name : Octets) : List Octets :=
      match rest with
      | [] => if present (directory ++ name) then [directory ++ name] else []
      | rest => matchingPaths st (directory ++ name ++ ['/']) rest
    if Pattern.isActive p then
      let as := Pattern.ofMarks p
      ((candidates st directory p).filter (Pattern.fits as)).flatMap go
    else go (p.map Prod.fst)

/-- The texts that a field stands for: the paths that it matches, or itself. -/
def fieldTexts (ms : List Pattern.Mark) : Work (List Octets) := do
  let text := ms.map Prod.fst
  if Pattern.isActive ms && !(← hasOption 'f') then
    match matchingPaths (← get) [] (pathPieces ms) with
    | [] => return [text]
    | paths => return Octets.sorted paths
  else return [text]

/-! ## What words stand for -/

/-- The texts that a word stands for. -/
def fields (sub : Command → Work Octets) (w : Word) : Work (List Octets) := do
  let fs := Fields.ofGlyphs (← separators) (← wordGlyphs sub true false w)
  return (← fs.mapM fieldTexts).flatten

/-- The texts that words stand for. -/
def allFields (sub : Command → Work Octets) (ws : List Word) : Work (List Octets) :=
  return (← ws.mapM (fields sub)).flatten

/-- The one text that a word stands for where there can be but one. -/
def wholeText (sub : Command → Work Octets) (w : Word) : Work Octets :=
  return Glyph.text (← wordGlyphs sub false false w)

/-- The pattern that a word stands for. -/
def pattern (sub : Command → Work Octets) (w : Word) : Work (List Pattern.Atom) :=
  return Pattern.ofMarks (Glyph.marks (← wordGlyphs sub false false w))

end Work

end CompilerFuzz.Host
