import ServiceModules.Charset.Fault
import ServiceModules.Files.Path
import ServiceModules.ImportPath

/-!
Looking for a module. A module that is found has an identifier and a place where its content is
kept; one that is not found leaves a list of the places that were looked at.
-/

namespace ServiceModules

inductive ContentPlace where
  /-- The content is at hand. -/
  | held (bytes : Bytes)
  /-- The content is in the file at an absolute path. -/
  | stored (path : FilePath)
deriving DecidableEq, Repr, Inhabited

structure ModuleSource where
  uri : String
  place : ContentPlace
deriving DecidableEq, Repr, Inhabited

namespace ModuleSource

def describe (source : ModuleSource) : String :=
  match source.place with
  | .held _ => "StringModuleSource(" ++ source.uri ++ ")"
  | .stored _ => "FileModuleSource(" ++ source.uri ++ ")"

/-- Two sources are of the same module when they have one identifier, whatever their content. -/
def sameModule (left right : ModuleSource) : Bool := left.uri = right.uri

end ModuleSource

structure MissingModule where
  path : ImportPath
  /-- The places that were looked at, in order. -/
  looked : List String
  /-- The module that holds the import. -/
  requester : String
deriving DecidableEq, Repr, Inhabited

namespace MissingModule

def message (missing : MissingModule) : String :=
  "module '" ++ missing.path.text ++ "' not found"

end MissingModule

inductive Lookup where
  | found (source : ModuleSource)
  | missing (missing : MissingModule)
deriving DecidableEq, Repr, Inhabited

end ServiceModules
