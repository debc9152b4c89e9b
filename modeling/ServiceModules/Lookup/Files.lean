import ServiceModules.Fault
import ServiceModules.Uri.File
import ServiceModules.Uri.Memory

/-!
Modules in files. The module `a.b` below a base directory is the file `a/b.mg`, or else the file
`a/b/mod.mg`. A relative path has one base, the directory of the importing module climbed once for
every dot but the first. An absolute path is looked for in the directory of the importing module
and then below the package paths. The search ends with a fault where a look at a place is refused.
-/

namespace ServiceModules

structure FileModules where
  tree : FileTree
  current : FilePath
  /-- The resolved package paths, in the order of the search. -/
  packagePaths : List FilePath
deriving Repr, Inhabited

namespace FileModules

/-- The file name, without extension, of a module that is a whole directory. -/
def packageEntry : String := "mod"

def resolvePackagePaths (current : FilePath) (paths : List FilePath) :
    Except FileFault (List FilePath) :=
  if paths.any FilePath.hasNull then .error .null
  else .ok (paths.map (FilePath.resolve current))

def directoryOf? (requester : String) : Except UriFault (Option FilePath) :=
  match Uri.isFile requester with
  | .error fault => .error fault
  | .ok false => .ok none
  | .ok true => (Uri.toPath requester).map fun path => some path.parent

def climb (path : FilePath) : Nat → FilePath
  | 0 => path
  | count + 1 => climb path.parent count

/-- The directories below which a path is looked for by a module in `directory`. -/
def bases (modules : FileModules) (directory : Option FilePath) (path : ImportPath) :
    List FilePath :=
  if path.isRelative then directory.toList.map fun base => climb base (path.level - 1)
  else (directory.toList ++ modules.packagePaths).eraseDups

/-- The two files that may hold the module with the given parts below a base. -/
def candidates (base : FilePath) (parts : List String) : List FilePath :=
  let target := parts.foldl FilePath.child base
  [target.parent.child (target.name ++ moduleExtension),
    target.child (packageEntry ++ moduleExtension)]

def source (current path : FilePath) : ModuleSource :=
  ⟨Uri.ofPath (current.resolve path), .stored (current.resolve path)⟩

def find (modules : FileModules) (requester : String) (path : ImportPath) :
    Except Fault Lookup :=
  match directoryOf? requester with
  | .error fault => .error (.identifier fault)
  | .ok directory =>
    let places := (modules.bases directory path).flatMap fun base => candidates base path.parts
    match places.findM? (modules.tree.isFile modules.current) with
    | .error fault => .error (.file fault)
    | .ok (some place) => .ok (.found (source modules.current place))
    | .ok none => .ok (.missing ⟨path, places.map FilePath.text, requester⟩)

def read (tree : FileTree) (current : FilePath) (source : ModuleSource) : Except Fault Bytes :=
  match source.place with
  | .held bytes => .ok bytes
  | .stored path => (tree.read current path).mapError .file

end FileModules

end ServiceModules
