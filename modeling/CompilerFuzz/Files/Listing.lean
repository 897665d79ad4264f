/-
  CompilerFuzz.Files.Listing

  A tree as a list: every place below the working directory as a path, in ascending order
  of the paths, with the content of each file; and the names in one directory.
-/
import CompilerFuzz.Files.Tree
import CompilerFuzz.Text.ByteOrder

namespace CompilerFuzz.Files

open CompilerFuzz.Text

/-- The path of a place below the working directory. -/
def Location.pathBelowHome? (l : Location) : Option Path :=
  l.belowHome?.map (String.intercalate "/")

/-- Everything below the working directory, ascending by path. -/
def Tree.listing (t : Tree) : List (Path × Node) :=
  (t.nodes.filterMap fun e => e.1.pathBelowHome?.map (·, e.2)).mergeSort
    fun a b => (byteOrder a.1 b.1).isLE

/-- The names in the directory at a location, in ascending order. -/
def Tree.namesIn (t : Tree) (l : Location) : List String :=
  (t.nodes.filterMap fun e =>
    if e.1 = [] ∨ e.1.up ≠ l then none else e.1.getLast?).mergeSort
      fun a b => (byteOrder a b).isLE

end CompilerFuzz.Files
