/-
  CompilerFuzz.Host.Shell.Redirect

  Redirections. All targets are expanded before the first of them is opened. After a command
  the descriptors that its redirections touched are what they were before; other changes to
  descriptors stay.
-/
import CompilerFuzz.Host.Shell.Expansion

namespace CompilerFuzz.Host

open CompilerFuzz.Files CompilerFuzz.Text

/-- A redirection with its target known. -/
inductive Connection
  | file (descriptor : Nat) (opening : Opening) (path : Octets)
  | copy (descriptor source : Nat)
  | close (descriptor : Nat)
  | document (descriptor : Nat) (w : Word)

namespace Connection

/-- The descriptor that a redirection is for. -/
def descriptor : Connection → Nat
  | .file d .. | .copy d _ | .close d | .document d _ => d

end Connection

namespace Work

/-- The words for a cause in which a missing name is told by other words. -/
def wordsFor (missing : String) : Cause → Octets
  | .noSuchFile | .notADirectory => missing.toList
  | e => causeWords e

/-- The complaint about a file that cannot be opened. -/
def openingComplaint (opening : Opening) (path : Octets) (e : Cause) : Octets :=
  match opening with
  | .input => "cannot open ".toList ++ path ++ [':', ' '] ++ wordsFor "No such file" e
  | _ => "cannot create ".toList ++ path ++ [':', ' '] ++ wordsFor "Directory nonexistent" e

/-- Complains about a descriptor that is none. -/
def badDescriptor {α : Type} : Work α := fail "Syntax error: Bad fd number".toList

/-- Expands the target of a redirection. -/
def connection (sub : Command → Work Octets) : Redirection → Work Connection
  | .file d opening w => return .file d opening (← wholeText sub w)
  | .duplicate d w => do
    match ← wholeText sub w with
    | ['-'] => return .close d
    | [c] =>
      if c.isDigit then return .copy d (digitValue c)
      else badDescriptor
    | _ => badDescriptor
  | .document d number => return .document d ((← get).documents.text number)

/-- Puts an open file behind a descriptor. -/
def connect (descriptor number : Nat) : Work Unit :=
  modifyProcess fun p => p.connect descriptor number

/-- Carries out a redirection. -/
def establish (sub : Command → Work Octets) : Connection → Work Unit
  | .file d opening path => do
    let st ← get
    match st.system.openAs st.process opening path with
    | .ok (number, system) =>
      set { st with system := system }
      connect d number
    | .error e => fail (openingComplaint opening path e)
  | .copy d source => do
    if d ≠ source then
      match (← get).process.number? source with
      | some number => connect d number
      | none =>
        modifyProcess fun p => p.close d
        fail (numeral source ++ ": Bad file descriptor".toList)
  | .close d => modifyProcess fun p => p.close d
  | .document d w => do
    let text ← wholeText sub w
    connect d (← opened (.source text))

/-- What is behind some descriptors. -/
def savedDescriptors (cs : List Connection) : Work (List (Nat × Option Nat)) := do
  let p := (← get).process
  return cs.map fun c => (c.descriptor, p.number? c.descriptor)

/-- Puts back what was behind some descriptors. -/
def restore (saved : List (Nat × Option Nat)) : Work Unit :=
  modifyProcess fun p =>
    saved.foldl (fun p e =>
      match e.2 with
      | some number => p.connect e.1 number
      | none => p.close e.1) p

/-- Runs a piece of work and puts back what was behind some descriptors, also if it stops. -/
def restoring {α : Type} (saved : List (Nat × Option Nat)) (w : Work α) : Work α := do
  try
    let a ← w
    restore saved
    return a
  catch e =>
    restore saved
    throw e

/-- Carries out redirections. Are all of them done? -/
def establishAll (sub : Command → Work Octets) (cs : List Connection) : Work Bool := do
  try
    cs.forM (establish sub)
    return true
  catch
    | .error => return false
    | e => throw e

/-- Runs a piece of work under redirections, or other work if one of them fails. -/
def redirected {α : Type} (sub : Command → Work Octets) (rs : List Redirection)
    (failed w : Work α) : Work α := do
  let cs ← rs.mapM (connection sub)
  let saved ← savedDescriptors cs
  restoring saved do
    if ← establishAll sub cs then w else failed

end Work

end CompilerFuzz.Host
