import ServiceModules.Text.Split

/-!
Paths of files. A path is a root and the names below it; empty names and single dots are dropped
when it is read, double dots stay. Two slashes at the beginning are a root of their own, any other
number is the usual one.
-/

namespace ServiceModules

inductive PathRoot where
  /-- Relative to the current directory. -/
  | current
  | slash
  | doubleSlash
deriving DecidableEq, Repr, Inhabited

namespace PathRoot

def text : PathRoot → String
  | .current => ""
  | .slash => "/"
  | .doubleSlash => "//"

def ofSlashes : Nat → PathRoot
  | 0 => .current
  | 2 => .doubleSlash
  | _ => .slash

end PathRoot

structure FilePath where
  root : PathRoot
  parts : List String
deriving DecidableEq, Repr, Inhabited

namespace FilePath

def isName (part : List Char) : Bool := part ≠ [] && part ≠ ['.']

def ofText (text : String) : FilePath :=
  { root := .ofSlashes (text.toList.takeWhile (· = '/')).length
    parts := ((Text.split '/' text.toList).filter isName).map String.ofList }

def text (path : FilePath) : String :=
  if path.root = .current && path.parts.isEmpty then "."
  else path.root.text ++ "/".intercalate path.parts

def isAbsolute (path : FilePath) : Bool := path.root ≠ .current

def hasNull (path : FilePath) : Bool := path.parts.any fun part => part.toList.contains '\x00'

/-- Whether the text of the path, and what ends it, goes beyond 4096 bytes. -/
def isTooLong (path : FilePath) : Bool := 4095 < path.text.utf8ByteSize

def name (path : FilePath) : String := path.parts.getLastD ""

/-- The path without its last name; a path without names is its own parent. -/
def parent (path : FilePath) : FilePath := { path with parts := path.parts.dropLast }

def join (path other : FilePath) : FilePath :=
  if other.isAbsolute then other else { path with parts := path.parts ++ other.parts }

def child (path : FilePath) (name : String) : FilePath := path.join (.ofText name)

/-- The names of a path below the usual root, seen from `directory`, in which every double dot has
removed the name before it. At the root a double dot changes nothing. -/
def climb : List String → List String → List String
  | reached, [] => reached
  | reached, part :: rest =>
    if part = ".." then climb reached.dropLast rest else climb (reached ++ [part]) rest

/-- The absolute path without double dots that a path stands for in the directory `current`. -/
def resolve (current path : FilePath) : FilePath :=
  ⟨.slash, climb [] (current.join path).parts⟩

end FilePath

end ServiceModules
