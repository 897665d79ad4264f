/-
  CompilerFuzz.Campaign.Cleanup

  Removing the artifacts: every one that is a regular file goes, and what cannot be removed
  stops nothing. A guard removes them when it ends, however it ends.
-/
import CompilerFuzz.Files.Tree
import CompilerFuzz.Settings.Basic

namespace CompilerFuzz.Campaign

open CompilerFuzz.Files

/-- Removes one file if it can be removed, and counts it. -/
def removeOne (state : Tree × Nat) (path : Path) : Tree × Nat :=
  match state.1.removeFile path with
  | .ok t => (t, state.2 + 1)
  | .error _ => state

/-- Removes the artifacts, and counts those that were there. -/
def removeArtifacts (a : Artifacts) (t : Tree) : Tree × Nat :=
  a.all.foldl removeOne (t, 0)

/-! ## Guards -/

/-- What may happen to a workspace and the guard over it. -/
inductive GuardAction
  /-- Somebody puts a node at a path. -/
  | place (path : Path) (node : Node)
  /-- A new guard is made; one that is already there ends after that. -/
  | hold
  /-- The guard, still held, removes the artifacts. -/
  | cleanup
  /-- The guard ends. -/
  | release
  /-- The guard ends because its holder fails. -/
  | fail
  /-- The artifacts are removed without a guard. -/
  | remove
  deriving DecidableEq, Repr

/-- What an action answers. -/
inductive GuardAnswer
  | done
  | removed (count : Nat)
  /-- The failure was seen from outside. -/
  | failed
  deriving DecidableEq, Repr

/-- The files, and whether a guard is held. -/
structure Guarded where
  files : Tree
  held : Bool
  deriving DecidableEq, Repr

/-- The files after a guard ends, if one is held. -/
def Guarded.ended (a : Artifacts) (g : Guarded) : Tree :=
  if g.held then (removeArtifacts a g.files).1 else g.files

/-- One action. -/
def Guarded.act (a : Artifacts) (g : Guarded) : GuardAction → Guarded × GuardAnswer
  | .place path node => ({ g with files := g.files.place path node }, .done)
  | .hold => (⟨g.ended a, true⟩, .done)
  | .cleanup =>
    if g.held then
      let (files, count) := removeArtifacts a g.files
      (⟨files, true⟩, .removed count)
    else (g, .done)
  | .release => (⟨g.ended a, false⟩, .done)
  | .fail => (⟨g.ended a, false⟩, .failed)
  | .remove =>
    let (files, count) := removeArtifacts a g.files
    ({ g with files := files }, .removed count)

end CompilerFuzz.Campaign
