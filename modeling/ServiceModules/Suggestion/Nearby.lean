import ServiceModules.Files.Tree
import ServiceModules.Text.Sorted

/-!
Candidates from a file tree: the regular files next to the places where a module was looked for.
Where the directory of such a place does not exist, the nearest one above it that does counts. A
look that is refused on the way up ends the whole listing.
-/

namespace ServiceModules

namespace Suggestion

def ancestors (path : FilePath) : List FilePath :=
  (List.range (path.parts.length + 1)).map fun climbed =>
    { path with parts := path.parts.take (path.parts.length - climbed) }

def nearestDirectory? (tree : FileTree) (current path : FilePath) :
    Except FileFault (Option FilePath) :=
  (ancestors path).findM? (tree.isDirectory current)

/-- The file names near the places that were looked at, and those in the current directory when it
is to be included; every name once and in order. -/
def nearby (tree : FileTree) (current : FilePath) (includeCurrent : Bool) (looked : List String) :
    Except FileFault (List String) := do
  let nearest ← looked.mapM fun place => nearestDirectory? tree current (.ofText place)
  let directories := (if includeCurrent then [current] else []) ++ nearest.filterMap id
  return Text.sortedDistinct (directories.flatMap (tree.fileNames current))

end Suggestion

end ServiceModules
