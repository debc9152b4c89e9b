import ServiceModules.Crawl.Expansion
import ServiceModules.Crawl.Result

/-!
Crawling: breadth first through everything that a root module imports, directly or not. A pending
module that the result holds already is skipped. One that the cache holds is taken from there, and
any other one is loaded and expanded, and only then put into the cache. The first fault ends the
crawl.
-/

namespace ServiceModules

structure Crawl where
  result : CrawlResult
  queue : List Pending
  cache : ModuleCache
  history : History
  failure : Option Fault
deriving Inhabited

namespace Crawl

def fail (crawl : Crawl) (fault : Fault) : Crawl := { crawl with failure := some fault }

def accept (crawl : Crawl) (record : ModuleRecord) (found : List Pending) : Crawl :=
  { crawl with result := crawl.result.insert record, queue := crawl.queue ++ found }

/-- Puts an expanded module into the cache, unless others have put one there meanwhile. -/
def keep (crawl : Crawl) (module : Module) (found : List Pending) : Crawl :=
  let (record, cache) := crawl.cache.record module
  match cache.get? record.uri with
  | some kept => { crawl with cache := cache }.accept kept kept.module.pending
  | none => { crawl with cache := (cache.insertIfNew record).2 }.accept record found

def expand (world : World) (crawl : Crawl) (module : Module) : Crawl :=
  let expansion := Expansion.ofModule world module crawl.history
  let asked := { crawl with history := expansion.history }
  match expansion.outcome with
  | .error fault => asked.fail fault
  | .ok found => asked.keep (expansion.expanded module) found

def load (configuration : Configuration) (world : World) (crawl : Crawl)
    (source : ModuleSource) : Crawl :=
  let (interruption, cache) := world.meanwhile source.uri crawl.cache
  let asked := { crawl with cache := cache, history := crawl.history ++ [Question.load source.uri] }
  match interruption with
  | some fault => asked.fail fault
  | none =>
    match world.load configuration asked.history source with
    | .error fault => asked.fail fault
    | .ok module => asked.expand world module

/-- Locates a pending module once more whose source is not at hand. -/
def relocate (configuration : Configuration) (world : World) (crawl : Crawl)
    (pending : Pending) : Crawl :=
  let asked :=
    { crawl with
      history := crawl.history ++ [Question.lookup pending.importer.uri pending.request.path] }
  match world.source crawl.history pending.importer pending.request with
  | .error fault => asked.fail fault
  | .ok source =>
    if source.uri = pending.uri then asked.load configuration world source
    else
      asked.fail
        (.moved pending.request.path pending.importer.uri source.uri pending.uri
          pending.request.location)

def visit (configuration : Configuration) (world : World) (crawl : Crawl) (pending : Pending) :
    Crawl :=
  if crawl.result.contains pending.uri then crawl
  else
    match crawl.cache.get? pending.uri with
    | some record => crawl.accept record record.module.pending
    | none =>
      match pending.source with
      | some source => crawl.load configuration world source
      | none => crawl.relocate configuration world pending

/-- A crawl that has failed or has nothing pending is over. -/
def step (configuration : Configuration) (world : World) (crawl : Crawl) : Crawl :=
  match crawl.failure, crawl.queue with
  | none, pending :: rest => { crawl with queue := rest }.visit configuration world pending
  | _, _ => crawl

def run (configuration : Configuration) (world : World) : Nat → Crawl → Crawl
  | 0, crawl => crawl
  | count + 1, crawl => run configuration world count (crawl.step configuration world)

def outcome? (crawl : Crawl) : Option (Except Fault CrawlResult) :=
  match crawl.failure, crawl.queue with
  | some fault, _ => some (.error fault)
  | none, [] => some (.ok crawl.result)
  | none, _ :: _ => none

def expandedRoot (world : World) (root : ModuleRecord) : ModuleRecord :=
  { root with module := (Expansion.ofModule world root.module []).expanded root.module }

/-- The beginning of a crawl: the root is expanded and, if all its imports lead somewhere, put into
the cache. -/
def start (world : World) (cache : ModuleCache) (root : ModuleRecord) : Crawl :=
  let expansion := Expansion.ofModule world root.module []
  let record := expandedRoot world root
  let begun : Crawl :=
    { result := CrawlResult.empty.insert record
      queue := []
      cache := cache
      history := expansion.history
      failure := none }
  match expansion.outcome with
  | .error fault => begun.fail fault
  | .ok found => { begun with queue := found, cache := (cache.insertIfNew record).2 }

end Crawl

end ServiceModules
