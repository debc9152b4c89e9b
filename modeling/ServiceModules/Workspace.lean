import ServiceModules.Crawl.Basic
import ServiceModules.Lookup.Files
import ServiceModules.Lookup.Memory
import ServiceModules.References
import ServiceModules.Suggestion.Nearby

/-!
Workspaces. A workspace has modules in memory or in files, a configuration, a source of candidates
for suggestions, and a cache that is shared by everything that is crawled and parsed in it.
-/

namespace ServiceModules

inductive Finder where
  | memory (modules : MemoryModules)
  /-- In files, with package paths that are already resolved. -/
  | files (packagePaths : List FilePath)
deriving Repr, Inhabited

/-- Where the candidates for suggestions come from. -/
inductive CandidateLister where
  | fixed (names : List String)
  | nearby (includesCurrent : Bool)
deriving DecidableEq, Repr, Inhabited

structure Workspace where
  tree : FileTree
  /-- The current directory. -/
  current : FilePath
  finder : Finder
  /-- Every parse looks for modules below the package paths of its own configuration. -/
  findsByConfiguration : Bool
  lister : CandidateLister
  configuration : Configuration
  cache : ModuleCache
deriving Repr, Inhabited

structure ParsedModules where
  root : Module
  modules : CrawlResult
  references : References
deriving Repr, Inhabited

namespace Workspace

def withCache (workspace : Workspace) (cache : ModuleCache) : Workspace :=
  { workspace with cache := cache }

def finderFor (workspace : Workspace) (configuration : Configuration) :
    Except FileFault Finder :=
  if workspace.findsByConfiguration then
    (FileModules.resolvePackagePaths workspace.current configuration.packagePaths).map .files
  else .ok workspace.finder

def findWith (workspace : Workspace) (finder : Finder) (requester : String) (path : ImportPath) :
    Except Fault Lookup :=
  match finder with
  | .memory modules => modules.find requester path
  | .files packagePaths =>
    FileModules.find ⟨workspace.tree, workspace.current, packagePaths⟩ requester path

def find (workspace : Workspace) (requester : String) (path : ImportPath) :
    Except Fault Lookup :=
  workspace.findWith workspace.finder requester path

def read (workspace : Workspace) (source : ModuleSource) : Except Fault Bytes :=
  FileModules.read workspace.tree workspace.current source

def nearby (workspace : Workspace) (includesCurrent : Bool) (looked : List String) :
    Except FileFault (List String) :=
  Suggestion.nearby workspace.tree workspace.current includesCurrent looked

/-- The candidates for an import that leads nowhere. A listing that is refused counts as empty; what
is near a module that is missing in files can always be listed. -/
def candidates (workspace : Workspace) (looked : List String) : List String :=
  match workspace.lister with
  | .fixed names => names
  | .nearby includesCurrent =>
    match workspace.nearby includesCurrent looked with
    | .error _ => []
    | .ok names => names

/-- The world of a crawl in a workspace, whose files do not change meanwhile. -/
def world (workspace : Workspace) (finder : Finder) : World where
  locate := fun _ requester path => workspace.findWith finder requester path
  read := fun _ source => workspace.read source
  candidates := workspace.candidates
  meanwhile := World.undisturbed

/-! A crawl takes no more modules from its queue than there are import requests, and there are no
more requests in a module than bytes. -/

def contentLength (charset : String) (content : Content) : Nat :=
  match content.encode charset with
  | .error _ => 0
  | .ok bytes => bytes.length

def entryLength : FileEntry → Nat
  | .directory => 0
  | .file content => content.length

def requestCount (module : Module) : Nat := module.table.imports.length

/-- At least as many steps as a crawl from `root` takes. -/
def stepBound (workspace : Workspace) (root : ModuleRecord) : Nat :=
  let held :=
    match workspace.finder with
    | .memory modules => modules.sources.map fun source => contentLength modules.charset source.2
    | .files _ => []
  let stored := workspace.tree.entries.map fun entry => entryLength entry.2
  let cached := workspace.cache.entries.map fun entry => requestCount entry.2.module
  requestCount root.module + (held ++ stored ++ cached).foldr Nat.add 0

def crawlIn (workspace : Workspace) (world : World) (configuration : Configuration) (extra : Nat)
    (root : ModuleRecord) : Crawl :=
  (Crawl.start world workspace.cache root).run configuration world
    (workspace.stepBound root + extra)

def record (workspace : Workspace) (module : Module) : ModuleRecord × Workspace :=
  let (record, cache) := workspace.cache.record module
  (record, workspace.withCache cache)

/-! Parsing a root module and everything that it imports. -/

def parseAt (workspace : Workspace) (finder : Finder) (configuration : Configuration)
    (uri : String) (content : Content) : Option (Except Fault ParsedModules) × Workspace :=
  match Module.ofContent configuration uri content with
  | .error fault => (some (.error fault), workspace)
  | .ok module =>
    let (root, begun) := workspace.record module
    let crawl := begun.crawlIn (begun.world finder) configuration 0 root
    let after := begun.withCache crawl.cache
    match crawl.outcome? with
    | none => (none, after)
    | some (.error fault) => (some (.error fault), after)
    | some (.ok result) =>
      match result.references with
      | .error fault => (some (.error fault), after)
      | .ok references => (some (.ok ⟨module, result, references⟩), after)

/-- Parses a root module with the given content; `base` is its path or its identifier. -/
def parse (workspace : Workspace) (configuration : Configuration) (content : Content)
    (base : String) : Option (Except Fault ParsedModules) × Workspace :=
  match workspace.finderFor configuration, Uri.ofLocation workspace.current base with
  | .error fault, _ => (some (.error (.file fault)), workspace)
  | .ok _, .error fault => (some (.error (.file fault)), workspace)
  | .ok finder, .ok uri => workspace.parseAt finder configuration uri content

def parseFile (workspace : Workspace) (configuration : Configuration) (path : String) :
    Option (Except Fault ParsedModules) × Workspace :=
  match workspace.tree.read workspace.current (.ofText path) with
  | .error fault => (some (.error (.file fault)), workspace)
  | .ok bytes =>
    match workspace.finderFor configuration, Uri.ofFile workspace.current (.ofText path) with
    | .error fault, _ => (some (.error (.file fault)), workspace)
    | .ok _, .error fault => (some (.error (.file fault)), workspace)
    | .ok finder, .ok uri => workspace.parseAt finder configuration uri (.bytes bytes)

end Workspace

end ServiceModules
