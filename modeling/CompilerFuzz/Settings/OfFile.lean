/-
  CompilerFuzz.Settings.OfFile

  Settings out of a file.
-/
import CompilerFuzz.Files.Tree
import CompilerFuzz.Settings.OfTable

namespace CompilerFuzz

open CompilerFuzz.Files

/-- The settings that a file describes. -/
def Settings.ofFile (files : Tree) (path : Path) : Except SettingsError Settings :=
  match files.readText path with
  | .error cause => .error (.unreadable path cause)
  | .ok text => ofText text

end CompilerFuzz
