import ServiceModules.Files.Fault
import ServiceModules.Uri.Basic
import ServiceModules.Uri.Percent

/-!
File identifiers. The identifier of a file is made from its resolved path, so that all spellings
of one path have one identifier, and the path can be read back from it.
-/

namespace ServiceModules

namespace Uri

def fileScheme : String := "file"

def isFile (uri : String) : Except UriFault Bool :=
  (split uri).map fun parts => parts.scheme = fileScheme

def toPath (uri : String) : Except UriFault FilePath :=
  match split uri with
  | .error fault => .error fault
  | .ok parts =>
    if parts.scheme = fileScheme then
      .ok (.ofText (String.ofList (Percent.decode parts.path)))
    else .error (.notAFile uri)

def ofPath (path : FilePath) : String :=
  "file://" ++ String.ofList (Percent.encode path.text.toList)

/-- Whether a colon and two slashes stand somewhere in the text. -/
def isIdentifier : List Char → Bool
  | [] => false
  | character :: rest => [':', '/', '/'].isPrefixOf (character :: rest) || isIdentifier rest

def ofFile (current path : FilePath) : Except FileFault String :=
  if path.hasNull then .error .null else .ok (ofPath (current.resolve path))

/-- The identifier of a location: itself when it already is one, else that of the path. -/
def ofLocation (current : FilePath) (location : String) : Except FileFault String :=
  if isIdentifier location.toList then .ok location else ofFile current (.ofText location)

end Uri

end ServiceModules
