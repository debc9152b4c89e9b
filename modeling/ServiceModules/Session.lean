import ServiceModules.Workspace

/-!
Sessions: crawls one after the other in one workspace. A session knows its last root, so that it
can be crawled again as it is then, and for every module the record that a successful crawl came to
last. It also knows of rival modules: the first time that a crawl loads a module that has a rival,
the rival is crawled from over the same cache before the module is read.
-/

namespace ServiceModules

structure Session where
  workspace : Workspace
  /-- Texts of rival modules by their identifiers. -/
  rivals : List (String × String)
  root : Option ModuleRecord
  /-- The records that successful crawls came to last. -/
  recent : CrawlResult
deriving Repr, Inhabited

structure CrawlReport where
  outcome : Except Fault CrawlResult
  root : ModuleRecord
  /-- The modules that were loaded, the root excepted. -/
  loads : List String
  /-- The modules whose records an earlier successful crawl came to last. -/
  reused : List String
  /-- Whether the cache holds the very record of the root. -/
  rootIsCached : Bool

namespace Session

def ofWorkspace (workspace : Workspace) (rivals : List (String × String)) : Session :=
  ⟨workspace, rivals, none, CrawlResult.empty⟩

def rivalBound (session : Session) : Nat :=
  session.rivals.foldl (fun bound rival => bound + (rival.2.utf8ByteSize + 1)) 0

/-- Crawls from a rival of the module that is being loaded; the text of a rival is kept in UTF-8. -/
def meanwhile (session : Session) (uri : String) (cache : ModuleCache) :
    Option Fault × ModuleCache :=
  match session.rivals.lookup uri with
  | none => (none, cache)
  | some text =>
    let workspace := session.workspace.withCache cache
    match Module.ofBytes workspace.configuration uri (Utf8.encode text.toList) with
    | .error fault => (some fault, cache)
    | .ok module =>
      let (rival, begun) := workspace.record module
      let crawl :=
        begun.crawlIn (begun.world begun.finder) begun.configuration session.rivalBound rival
      (crawl.failure, crawl.cache)

def world (session : Session) : World :=
  { session.workspace.world session.workspace.finder with meanwhile := session.meanwhile }

def isSame (record : ModuleRecord) (other : Option ModuleRecord) : Bool :=
  other.any fun other => other.number = record.number

def reusedBy (session : Session) (result : CrawlResult) : List String :=
  (result.entries.filter fun entry => isSame entry.2 (session.recent.get? entry.1)).map Prod.fst

def crawlFrom (session : Session) (root : ModuleRecord) : Option CrawlReport × Session :=
  let workspace := session.workspace
  let crawl :=
    workspace.crawlIn session.world workspace.configuration session.rivalBound root
  let expanded := Crawl.expandedRoot session.world root
  let loads := crawl.history.loads
  let after :=
    { session with
      workspace := workspace.withCache crawl.cache
      rivals := session.rivals.filter fun rival => !loads.contains rival.1
      root := some expanded }
  match crawl.outcome? with
  | none => (none, after)
  | some (.error fault) => (some ⟨.error fault, expanded, loads, [], false⟩, after)
  | some (.ok result) =>
    (some
      { outcome := .ok result
        root := expanded
        loads := loads
        reused := session.reusedBy result
        rootIsCached := isSame expanded (crawl.cache.get? root.uri) },
      { after with recent := result.records.foldl CrawlResult.insert session.recent })

def crawl (session : Session) (module : Module) : Option CrawlReport × Session :=
  let (record, workspace) := session.workspace.record module
  { session with workspace := workspace }.crawlFrom record

def recrawl (session : Session) : Option CrawlReport × Session :=
  match session.root with
  | none => (none, session)
  | some root => session.crawlFrom root

/-- The source of the module that has the given name in memory, or path in files. -/
def rootSource (session : Session) (name : String) : Option (Except Fault ModuleSource) :=
  match session.workspace.finder with
  | .memory modules => (modules.sources.lookup name).map (modules.source name)
  | .files _ =>
    let path := FilePath.ofText name
    some
      (if path.hasNull then .error (.file .null)
      else .ok (FileModules.source session.workspace.current path))

def loadRoot (session : Session) (name : String) : Option (Except Fault Module) :=
  (session.rootSource name).map fun source =>
    source.bind fun source =>
      (session.workspace.read source).bind
        (Module.ofBytes session.workspace.configuration source.uri)

end Session

end ServiceModules
