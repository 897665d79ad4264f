/-
  CompilerFuzz.Main

  The program. It looks at the places on disk that a command can concern, lets the library
  do the work on a tree of files, and carries the changes of that tree out. Tools are those
  of a small host of its own, so a campaign depends on its files alone.
-/
import CompilerFuzz.CommandLine.Perform
import CompilerFuzz.Files.Listing
import CompilerFuzz.Host.Catalog
import CompilerFuzz.Host.Rehearsal

namespace CompilerFuzz.Disk

open CompilerFuzz.Campaign CompilerFuzz.CommandLine CompilerFuzz.Files

/-- What is at a path on disk, if anything is and it can be read. -/
def node? (path : Path) : IO (Option Node) := do
  try
    return some (.file (← IO.FS.readBinFile path).toList)
  catch
    | .inappropriateType .. => return some .directory
    | _ => return none

/-- The path of a place. -/
def pathOf (l : Location) : Path :=
  if l = Location.home then "."
  else l.pathBelowHome?.getD ("/" ++ String.intercalate "/" l)

/-- Adds to a tree what is on disk at the places along a path. -/
def observe (t : Tree) (path : Path) : IO Tree := do
  let names := (Tree.names path).filter fun n => n ≠ "" ∧ n ≠ "."
  let top := if Path.isAbsolute path then Location.root else Location.home
  (List.range names.length).foldlM (fun t k => do
    let l := top ++ names.take (k + 1)
    match ← node? (pathOf l) with
    | some n => return t.set l n
    | none => return t) t

/-- The paths that a command reads before its settings are known. -/
def pathsBefore (config : Option String) (a : Arguments) : List Path :=
  match a.command with
  | .triage o => [o.log]
  | .fuzz _ => a.config.toList ++ config.toList ++ [localConfig]

/-- The paths that a command works on when its settings are known. -/
def pathsAfter (here : Surroundings) (a : Arguments) : List Path :=
  match a.command with
  | .triage _ => []
  | .fuzz o =>
    match effectiveJob here.files here.config a.config o with
    | .error _ => []
    | .ok job => job.artifacts.all ++ [job.toolchain.generator, job.toolchain.compiler,
        job.toolchain.optimizer]

/-- What the program finds on disk. -/
def surroundings (words : List String) : IO Surroundings := do
  let config ← IO.getEnv configVariable
  match Request.read? words with
  | some (.perform a) =>
    let before ← (pathsBefore config a).foldlM observe .empty
    let after ← (pathsAfter ⟨config, before⟩ a).foldlM observe before
    return ⟨config, after⟩
  | _ => return ⟨config, .empty⟩

/-- Puts a node on disk. -/
def put (path : Path) : Node → IO Unit
  | .directory => IO.FS.createDirAll path
  | .file content => IO.FS.writeBinFile path (ByteArray.mk content.toArray)

/-- Carries out on disk what has changed between two trees. -/
def carryOut (before after : Tree) : IO Unit := do
  for (l, n) in after.nodes do
    if before.find? l ≠ some n then put (pathOf l) n
  for (l, _) in before.nodes do
    if (after.find? l).isNone then IO.FS.removeFile (pathOf l)

end CompilerFuzz.Disk

open CompilerFuzz CompilerFuzz.CommandLine in
/-- Runs the program on its arguments. -/
def main (args : List String) : IO UInt32 := do
  let here ← Disk.surroundings args
  let env := Host.Script.environment ⟨[], [], [], .never⟩ Host.respond
  match CommandLine.run env Host.Script.enough here args with
  | none => return 1
  | some t =>
    Disk.carryOut here.files t.world.files
    IO.print t.stdout
    IO.eprint t.stderr
    return UInt32.ofNat t.exit
