import ServiceModules.Crawl.World

/-!
Expanding a module: its import requests are located one after the other, and every one that leads
somewhere is bound. The first one that leads nowhere ends the expansion; the requests before it
stay bound.
-/

namespace ServiceModules

/-- A module that an import leads to and that is yet to be visited. -/
structure Pending where
  uri : String
  importer : Module
  request : ImportRequest
  /-- The source, when the import has just been located. -/
  source : Option ModuleSource
deriving Repr, Inhabited

namespace Module

def pending (module : Module) : List Pending :=
  module.table.imports.filterMap fun request =>
    request.target.map fun target => ⟨target, module, request, none⟩

end Module

structure Expansion where
  outcome : Except Fault (List Pending)
  /-- The requests as they are afterwards. -/
  requests : List ImportRequest
  history : History

namespace Expansion

def prepend (request : ImportRequest) (pending : Pending) (expansion : Expansion) : Expansion :=
  { expansion with
    outcome := expansion.outcome.map (pending :: ·)
    requests := request :: expansion.requests }

def ofRequests (world : World) (module : Module) (history : History) :
    List ImportRequest → Expansion
  | [] => ⟨.ok [], [], history⟩
  | request :: rest =>
    match request.target with
    | some target =>
      (ofRequests world module history rest).prepend request ⟨target, module, request, none⟩
    | none =>
      let asked := history ++ [.lookup module.uri request.path]
      match world.source history module request with
      | .error fault => ⟨.error fault, request :: rest, asked⟩
      | .ok source =>
        let bound := request.bind source.uri
        (ofRequests world module asked rest).prepend bound
          ⟨source.uri, module, bound, some source⟩

def ofModule (world : World) (module : Module) (history : History) : Expansion :=
  ofRequests world module history module.table.imports

def expanded (expansion : Expansion) (module : Module) : Module :=
  module.withImports expansion.requests

end Expansion

end ServiceModules
