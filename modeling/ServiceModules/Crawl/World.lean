import ServiceModules.Module.Cache

/-!
What a crawl learns from outside: where an import leads to, what a source holds, which file names
are near a place, and what happens to the cache while a module is being loaded. Every question is
written into the history of the crawl, and an answer may depend on the history before it.
-/

namespace ServiceModules

inductive Question where
  /-- Where a path leads to in the module `requester`. -/
  | lookup (requester : String) (path : ImportPath)
  /-- What the module `uri` holds. -/
  | load (uri : String)
deriving DecidableEq, Repr, Inhabited

/-- All questions of a crawl, the first one first. -/
abbrev History := List Question

namespace History

def loads (history : History) : List String :=
  history.filterMap fun question =>
    match question with
    | .load uri => some uri
    | .lookup _ _ => none

end History

structure World where
  locate : History → String → ImportPath → Except Fault Lookup
  read : History → ModuleSource → Except Fault Bytes
  /-- The file names near the places that were looked at. -/
  candidates : List String → List String
  /-- What others do to the cache while a module is being loaded; a fault stops the crawl. -/
  meanwhile : String → ModuleCache → Option Fault × ModuleCache

namespace World

def undisturbed (_ : String) (cache : ModuleCache) : Option Fault × ModuleCache := (none, cache)

def unlocated (world : World) (importer : Module) (request : ImportRequest)
    (missing : MissingModule) : Fault :=
  let candidates := world.candidates missing.looked
  .unlocated
    { missing := missing
      location := request.location
      text := importer.text
      suggestions := Suggestion.suggest missing.path candidates Suggestion.usualLimit
      modules := Suggestion.modules candidates }

def source (world : World) (history : History) (importer : Module) (request : ImportRequest) :
    Except Fault ModuleSource :=
  match world.locate history importer.uri request.path with
  | .error fault => .error fault
  | .ok (.missing missing) => .error (world.unlocated importer request missing)
  | .ok (.found source) => .ok source

def load (world : World) (configuration : Configuration) (history : History)
    (source : ModuleSource) : Except Fault Module :=
  match world.read history source with
  | .error fault => .error fault
  | .ok bytes => Module.ofBytes configuration source.uri bytes

end World

end ServiceModules
