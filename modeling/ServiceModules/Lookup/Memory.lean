import ServiceModules.Charset.Basic
import ServiceModules.Fault
import ServiceModules.Uri.Memory

/-!
Modules in memory, by name. An absolute path names a module. A relative path is seen from the
package of the importing module, and every further dot leaves one more package; it leads nowhere
when there are not so many packages.
-/

namespace ServiceModules

structure MemoryModules where
  sources : List (String × Content)
  /-- The charset in which texts are handed out as bytes. -/
  charset : String
deriving Repr, Inhabited

namespace MemoryModules

def packages (name : String) : List (List Char) := (Text.split '.' name.toList).dropLast

/-- The name that a path stands for in the module with the given name. -/
def relativeName? (name : String) (path : ImportPath) : Option String :=
  let climbed := path.level - 1
  if climbed ≤ (packages name).length then
    let kept := (packages name).take ((packages name).length - climbed)
    some (String.ofList (Text.join '.' (kept ++ path.parts.map String.toList)))
  else none

def nameOf? (requester : String) (path : ImportPath) : Except UriFault (Option String) :=
  if path.isRelative then
    (Uri.moduleName? requester).map fun name => name.bind fun name => relativeName? name path
  else .ok (some path.dottedName)

def source (modules : MemoryModules) (name : String) (content : Content) :
    Except Fault ModuleSource :=
  match content.encode modules.charset with
  | .error fault => .error (.charset fault)
  | .ok bytes => .ok ⟨Uri.ofModuleName name, .held bytes⟩

def find (modules : MemoryModules) (requester : String) (path : ImportPath) :
    Except Fault Lookup :=
  match nameOf? requester path with
  | .error fault => .error (.identifier fault)
  | .ok none => .ok (.missing ⟨path, [], requester⟩)
  | .ok (some name) =>
    match modules.sources.lookup name with
    | none => .ok (.missing ⟨path, [Uri.ofModuleName name], requester⟩)
    | some content => (modules.source name content).map .found

def set (modules : MemoryModules) (name : String) (content : Content) : MemoryModules :=
  { modules with
    sources := modules.sources.filter (fun entry => entry.1 ≠ name) ++ [(name, content)] }

def erase (modules : MemoryModules) (name : String) : MemoryModules :=
  { modules with sources := modules.sources.filter fun entry => entry.1 ≠ name }

end MemoryModules

end ServiceModules
