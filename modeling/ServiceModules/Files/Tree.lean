import ServiceModules.Charset.Fault
import ServiceModules.Files.Fault

/-!
File trees. A tree holds directories and regular files by their absolute paths; the root is always
a directory. A path is walked name by name, so that a double dot leads to the parent of the
directory that was reached, and no name leads on from a regular file. A locked file is neither read
nor written, and in a locked directory nothing is looked up, listed or changed.

Whether there is a file or a directory at a path is answered in the negative where nothing is, and
also where something stands in the way. It is not answered where the look itself is refused.
-/

namespace ServiceModules

inductive FileEntry where
  | directory
  | file (content : Bytes)
deriving DecidableEq, Repr, Inhabited

def FileEntry.isFile : FileEntry → Bool
  | .file _ => true
  | .directory => false

structure FileTree where
  entries : List (List String × FileEntry)
  /-- The places without access. -/
  locked : List (List String)
deriving DecidableEq, Repr, Inhabited

namespace FileTree

def empty : FileTree := ⟨[], []⟩

def entry? (tree : FileTree) (parts : List String) : Option FileEntry :=
  if parts = [] then some .directory else tree.entries.lookup parts

def longestName : Nat := 255

def walk (tree : FileTree) (reached : List String) :
    List String → Except FileProblem (List String)
  | [] => .ok reached
  | part :: rest =>
    match tree.entry? reached with
    | none => .error .missing
    | some (.file _) => .error .notADirectory
    | some .directory =>
      if reached ∈ tree.locked then .error .forbidden
      else if part = ".." then tree.walk reached.dropLast rest
      else if longestName < part.utf8ByteSize then .error .nameTooLong
      else if (tree.entry? (reached ++ [part])).isNone then .error .missing
      else tree.walk (reached ++ [part]) rest

def find (tree : FileTree) (current path : FilePath) : Except FileProblem FileEntry :=
  match tree.walk [] (current.join path).parts with
  | .error problem => .error problem
  | .ok reached =>
    match tree.entry? reached with
    | none => .error .missing
    | some entry => .ok entry

/-- The place that a path leads to; a path that is too long leads nowhere. -/
def reach (tree : FileTree) (current path : FilePath) : Except FileProblem (List String) :=
  if path.isTooLong then .error .nameTooLong else tree.walk [] (current.join path).parts

/-- What is to be seen at a path. -/
def look (tree : FileTree) (current path : FilePath) : Except FileProblem FileEntry :=
  if path.isTooLong then .error .nameTooLong else tree.find current path

/-- Whether an entry of some kind is at a path. Nothing has the null character in its name. -/
def answers (isKind : FileEntry → Bool) (tree : FileTree) (current path : FilePath) :
    Except FileFault Bool :=
  match path.hasNull, tree.look current path with
  | true, _ => .ok false
  | false, .ok entry => .ok (isKind entry)
  | false, .error problem =>
    if problem.isAbsence then .ok false else .error (.refused problem path)

def isFile : FileTree → FilePath → FilePath → Except FileFault Bool := answers FileEntry.isFile

def isDirectory : FileTree → FilePath → FilePath → Except FileFault Bool :=
  answers fun entry => !entry.isFile

def read (tree : FileTree) (current path : FilePath) : Except FileFault Bytes :=
  if path.hasNull then .error .null
  else
    match tree.reach current path with
    | .error problem => .error (.refused problem path)
    | .ok reached =>
      if reached ∈ tree.locked then .error (.refused .forbidden path)
      else
        match tree.entry? reached with
        | none => .error (.refused .missing path)
        | some .directory => .error (.refused .isADirectory path)
        | some (.file content) => .ok content

/-- The names of the regular files in a directory, as far as they can be looked at. -/
def fileNames (tree : FileTree) (current path : FilePath) : List String :=
  match tree.reach current path with
  | .error _ => []
  | .ok reached =>
    if reached ∈ tree.locked then []
    else
      let inside := tree.entries.filter fun entry => entry.1.dropLast = reached && entry.1 ≠ []
      let seen := inside.takeWhile fun entry => !(path.child (entry.1.getLastD "")).isTooLong
      (seen.filter (·.2.isFile)).map (·.1.getLastD "")

/-!
Changing a tree. The directories above a file are made when it is written, and they stay when the
file itself is refused.
-/

def put (tree : FileTree) (parts : List String) (entry : FileEntry) : FileTree :=
  { tree with entries := tree.entries.filter (·.1 ≠ parts) ++ [(parts, entry)] }

def makeDirectory (tree : FileTree) (current path : FilePath) : Except FileProblem FileTree :=
  match tree.look current path, tree.walk [] (current.join path.parent).parts with
  | .ok _, _ => .error .occupied
  | .error .missing, .ok reached => .ok (tree.put (reached ++ [path.name]) .directory)
  | .error problem, _ => .error problem

def provideDirectory (tree : FileTree) (current path : FilePath) : Except FileProblem FileTree :=
  match tree.makeDirectory current path with
  | .ok made => .ok made
  | .error problem =>
    match tree.isDirectory current path with
    | .ok true => .ok tree
    | _ => .error problem

/-- Provides the directory with the given names, the last one first, and where one is missing on
the way to it, those above it before. -/
def provideNames (tree : FileTree) (current : FilePath) (root : PathRoot) :
    List String → Option FileFault × FileTree
  | [] => (none, tree)
  | name :: above =>
    let path : FilePath := ⟨root, (name :: above).reverse⟩
    match tree.provideDirectory current path with
    | .ok made => (none, made)
    | .error .missing =>
      match provideNames tree current root above with
      | (some fault, made) => (some fault, made)
      | (none, made) =>
        match made.provideDirectory current path with
        | .ok complete => (none, complete)
        | .error problem => (some (.refused problem path), made)
    | .error problem => (some (.refused problem path), tree)

def provide (tree : FileTree) (current path : FilePath) : Option FileFault × FileTree :=
  if path.hasNull then (some .null, tree)
  else tree.provideNames current path.root path.parts.reverse

def store (tree : FileTree) (current path : FilePath) (content : Bytes) :
    Option FileFault × FileTree :=
  if path.hasNull then (some .null, tree)
  else
    match tree.look current path, tree.walk [] (current.join path.parent).parts with
    | .ok .directory, _ => (some (.refused .isADirectory path), tree)
    | .ok (.file _), .ok reached =>
      if reached ++ [path.name] ∈ tree.locked then (some (.refused .forbidden path), tree)
      else (none, tree.put (reached ++ [path.name]) (.file content))
    | .error .missing, .ok reached => (none, tree.put (reached ++ [path.name]) (.file content))
    | .error problem, _ | _, .error problem => (some (.refused problem path), tree)

/-- Writes a file; the directories above it are provided first. -/
def write (tree : FileTree) (current path : FilePath) (content : Bytes) :
    Option FileFault × FileTree :=
  match tree.provide current path.parent with
  | (some fault, made) => (some fault, made)
  | (none, made) => made.store current path content

def delete (tree : FileTree) (current path : FilePath) : Except FileFault FileTree :=
  if path.hasNull then .error .null
  else
    match tree.reach current path with
    | .error problem => .error (.refused problem path)
    | .ok reached =>
      match tree.entry? reached with
      | some (.file _) => .ok { tree with entries := tree.entries.filter (·.1 ≠ reached) }
      | _ => .error (.refused .isADirectory path)

def enter (tree : FileTree) (current path : FilePath) : Except FileFault FilePath :=
  if path.hasNull then .error .null
  else
    match tree.reach current path with
    | .error problem => .error (.refused problem path)
    | .ok reached =>
      match tree.entry? reached with
      | none => .error (.refused .missing path)
      | some (.file _) => .error (.refused .notADirectory path)
      | some .directory =>
        if reached ∈ tree.locked then .error (.refused .forbidden path)
        else .ok (current.resolve path)

end FileTree

end ServiceModules
