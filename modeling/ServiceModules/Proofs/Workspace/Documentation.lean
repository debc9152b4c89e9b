import Mathlib
import ServiceModules.Proofs.Crawl.Undocumented
import ServiceModules.Workspace

/-!
Keeping documentation changes nothing else. A root module that is parsed with everything that it
imports comes to the same end whether documentation is kept or not: to the same fault, or to
modules that are equal once their documentation is erased. What is parsed without keeping
documentation holds none.
-/

namespace ServiceModules

namespace ParsedModules

def withoutDocumentation (parsed : ParsedModules) : ParsedModules where
  root := parsed.root.withoutDocumentation
  modules := parsed.modules.withoutDocumentation
  references := parsed.references

structure IsUndocumented (parsed : ParsedModules) : Prop where
  root : parsed.root.program.IsUndocumented
  modules : ∀ record ∈ parsed.modules.records, record.module.program.IsUndocumented

theorem isUndocumented_withoutDocumentation (parsed : ParsedModules) :
    parsed.withoutDocumentation.IsUndocumented where
  root := parsed.root.program.isUndocumented_withoutDocumentation
  modules := by
    intro record member
    rcases List.mem_map.mp member with ⟨entry, isEntry, rfl⟩
    rcases List.mem_map.mp isEntry with ⟨documented, _, rfl⟩
    exact documented.2.module.program.isUndocumented_withoutDocumentation

def ofCrawl? (root : Module) (crawl : Crawl) : Option (Except Fault ParsedModules) :=
  crawl.outcome?.map fun outcome =>
    outcome.bind fun result => result.references.map fun references => ⟨root, result, references⟩

theorem ofCrawl?_withoutDocumentation (root : Module) (crawl : Crawl) :
    ofCrawl? root.withoutDocumentation crawl.withoutDocumentation
      = (ofCrawl? root crawl).map (Except.map withoutDocumentation) := by
  rw [ofCrawl?, ofCrawl?, Crawl.outcome?_withoutDocumentation]
  cases crawl.outcome? with
  | none => rfl
  | some outcome =>
    cases outcome with
    | error fault => rfl
    | ok result =>
      simp only [Option.map_some, Except.map, Except.bind,
        CrawlResult.references_withoutDocumentation]
      cases result.references <;> rfl

end ParsedModules

/-- Two parses come to the same end, documentation excepted. -/
def SameButDocumentation (left right : Option (Except Fault ParsedModules)) : Prop :=
  left.map (Except.map ParsedModules.withoutDocumentation)
    = right.map (Except.map ParsedModules.withoutDocumentation)

def IsUndocumented (ending : Option (Except Fault ParsedModules)) : Prop :=
  ∀ parsed, ending = some (.ok parsed) → parsed.IsUndocumented

theorem isUndocumented_of_map_eq {ending : Option (Except Fault ParsedModules)}
    (erased : ending.map (Except.map ParsedModules.withoutDocumentation) = ending) :
    IsUndocumented ending := by
  rintro parsed rfl
  have same : parsed.withoutDocumentation = parsed := by
    simpa [Except.map] using erased
  rw [← same]
  exact parsed.isUndocumented_withoutDocumentation

/-! ## Parsing in any world -/

namespace World

def alone (world : World) : World := { world with meanwhile := undisturbed }

theorem alone_isUndisturbed (world : World) : world.alone.IsUndisturbed := rfl

/-- Parses a root module with everything that it imports, over an empty cache. How many steps the
crawl may take follows from the symbol table of the root. -/
def parse (world : World) (configuration : Configuration) (steps : SymbolTable → Nat)
    (uri : String) (content : Content) : Option (Except Fault ParsedModules) :=
  match Module.ofContent configuration uri content with
  | .error fault => some (.error fault)
  | .ok module =>
    let (root, cache) := ModuleCache.empty.record module
    ParsedModules.ofCrawl? module
      ((Crawl.start world cache root).run configuration world (steps module.table))

theorem parse_withoutDocumentation {world : World} (undisturbed : world.IsUndisturbed)
    (configuration : Configuration) (steps : SymbolTable → Nat) (uri : String)
    (content : Content) :
    (world.parse configuration steps uri content).map
        (Except.map ParsedModules.withoutDocumentation)
      = world.parse (configuration.keeping false) steps uri content := by
  rw [parse, parse, ← Module.ofContent_withoutDocumentation]
  cases Module.ofContent configuration uri content with
  | error fault => rfl
  | ok module =>
    dsimp only [Except.map]
    rw [← ParsedModules.ofCrawl?_withoutDocumentation,
      Crawl.run_withoutDocumentation configuration _ undisturbed,
      Crawl.start_withoutDocumentation]
    rfl

end World

/-! ## Parsing in a workspace -/

namespace Workspace

variable (workspace : Workspace)

def freshBound (table : SymbolTable) : Nat :=
  (workspace.withCache .empty).stepBound ⟨⟨"", "", default, table⟩, 0⟩

theorem parseAt_withCache_empty (finder : Finder) (configuration : Configuration) (uri : String)
    (content : Content) :
    ((workspace.withCache .empty).parseAt finder configuration uri content).1
      = (workspace.world finder).parse configuration workspace.freshBound uri content := by
  rw [parseAt, World.parse]
  cases Module.ofContent configuration uri content with
  | error fault => rfl
  | ok module =>
    have crawled : (crawlIn ((workspace.withCache .empty).record module).2
        (((workspace.withCache .empty).record module).2.world finder) configuration 0
        ((workspace.withCache .empty).record module).1)
        = (Crawl.start (workspace.world finder) (ModuleCache.empty.record module).2
            (ModuleCache.empty.record module).1).run configuration (workspace.world finder)
            (workspace.freshBound module.table) := rfl
    simp only [crawled, ParsedModules.ofCrawl?]
    generalize Crawl.run configuration (workspace.world finder)
      (workspace.freshBound module.table) _ = crawl
    cases crawl.outcome? with
    | none => rfl
    | some outcome =>
      cases outcome with
      | error fault => rfl
      | ok result =>
        simp only [Option.map_some, Except.bind]
        cases result.references <;> rfl

theorem world_isUndisturbed (finder : Finder) : (workspace.world finder).IsUndisturbed := rfl

theorem parse_withoutDocumentation (configuration : Configuration) (content : Content)
    (base : String) :
    ((workspace.withCache .empty).parse configuration content base).1.map
        (Except.map ParsedModules.withoutDocumentation)
      = ((workspace.withCache .empty).parse (configuration.keeping false) content base).1 := by
  have finder : (workspace.withCache .empty).finderFor (configuration.keeping false)
      = (workspace.withCache .empty).finderFor configuration := rfl
  simp only [parse, finder]
  cases (workspace.withCache .empty).finderFor configuration with
  | error fault => rfl
  | ok finder =>
    cases Uri.ofLocation (workspace.withCache .empty).current base with
    | error fault => rfl
    | ok uri =>
      simp only [parseAt_withCache_empty]
      exact World.parse_withoutDocumentation (workspace.world_isUndisturbed finder) configuration
        _ uri content

/-- Whether documentation is kept makes no difference but in documentation, in any world that nobody
disturbs and in any workspace with a fresh cache: a parse ends with the same fault, or with the same
root, modules and references up to documentation. Without keeping it no node has any. -/
theorem keeping_documentation_changes_nothing_else (world : World) (steps : SymbolTable → Nat)
    (uri : String) (configuration : Configuration) (keeps keepsOther : Bool) (content : Content)
    (base : String) :
    SameButDocumentation
        (world.alone.parse (configuration.keeping keeps) steps uri content)
        (world.alone.parse (configuration.keeping keepsOther) steps uri content)
      ∧ SameButDocumentation
        ((workspace.withCache .empty).parse (configuration.keeping keeps) content base).1
        ((workspace.withCache .empty).parse (configuration.keeping keepsOther) content base).1
      ∧ IsUndocumented (world.alone.parse (configuration.keeping false) steps uri content)
      ∧ IsUndocumented
        ((workspace.withCache .empty).parse (configuration.keeping false) content base).1 := by
  refine ⟨?_, ?_, ?_, ?_⟩
  · have erased := World.parse_withoutDocumentation world.alone_isUndisturbed
    rw [SameButDocumentation, erased, erased]
    rfl
  · rw [SameButDocumentation, parse_withoutDocumentation, parse_withoutDocumentation]
    rfl
  · exact isUndocumented_of_map_eq
      (World.parse_withoutDocumentation world.alone_isUndisturbed _ steps uri content)
  · exact isUndocumented_of_map_eq (workspace.parse_withoutDocumentation _ content base)

end Workspace

end ServiceModules
