import Mathlib
import ServiceModules.Proofs.Crawl.Visit
import ServiceModules.Proofs.Program.Table
import ServiceModules.Proofs.Program.Undocumented
import ServiceModules.References

/-!
Erasing documentation from a crawl. Nothing that a crawl does looks at documentation: erasing it
from all modules of a crawl and then taking a step comes to the same as taking the step, with or
without keeping documentation, and erasing afterwards.
-/

namespace ServiceModules

def Configuration.keeping (configuration : Configuration) (keepsDocumentation : Bool) :
    Configuration :=
  { configuration with keepsDocumentation := keepsDocumentation }

/-! ## Modules -/

namespace Module

def withoutDocumentation (module : Module) : Module :=
  { module with program := module.program.withoutDocumentation }

theorem ofText_withoutDocumentation (keeps : Bool) (uri text : String) :
    (ofText keeps uri text).map withoutDocumentation = ofText false uri text := by
  rw [ofText, ofText, Program.ofText_eq_parse, Program.ofText_eq_parse]
  cases Program.parse text with
  | error rejection => rfl
  | ok program =>
    cases keeps with
    | true =>
      simp only [if_true, Bool.false_eq_true, if_false, Program.symbolTable_withoutDocumentation]
      cases program.symbolTable uri <;> rfl
    | false =>
      simp only [Bool.false_eq_true, if_false]
      cases program.withoutDocumentation.symbolTable uri with
      | error clash => rfl
      | ok table =>
        simp only [Except.map, withoutDocumentation, Program.withoutDocumentation_idem]

theorem ofBytes_withoutDocumentation (configuration : Configuration) (uri : String)
    (bytes : Bytes) :
    (ofBytes configuration uri bytes).map withoutDocumentation
      = ofBytes (configuration.keeping false) uri bytes := by
  simp only [ofBytes, Configuration.keeping]
  split
  · exact ofText_withoutDocumentation _ uri _
  · rfl
  · rfl

theorem ofContent_withoutDocumentation (configuration : Configuration) (uri : String)
    (content : Content) :
    (ofContent configuration uri content).map withoutDocumentation
      = ofContent (configuration.keeping false) uri content := by
  unfold ofContent
  have charset : (configuration.keeping false).charset = configuration.charset := rfl
  rw [charset]
  split
  · rfl
  · exact ofBytes_withoutDocumentation configuration uri _

end Module

theorem World.load_withoutDocumentation (world : World) (configuration : Configuration)
    (history : History) (source : ModuleSource) :
    (world.load configuration history source).map Module.withoutDocumentation
      = world.load (configuration.keeping false) history source := by
  unfold load
  split
  · rfl
  · exact Module.ofBytes_withoutDocumentation configuration source.uri _

/-! ## Collections of modules -/

def ModuleRecord.withoutDocumentation (record : ModuleRecord) : ModuleRecord :=
  { record with module := record.module.withoutDocumentation }

def entriesWithoutDocumentation (entries : List (String × ModuleRecord)) :
    List (String × ModuleRecord) :=
  entries.map fun entry => (entry.1, entry.2.withoutDocumentation)

theorem lookup_entriesWithoutDocumentation (entries : List (String × ModuleRecord))
    (uri : String) :
    (entriesWithoutDocumentation entries).lookup uri
      = (entries.lookup uri).map ModuleRecord.withoutDocumentation := by
  induction entries with
  | nil => rfl
  | cons entry rest induction =>
    rw [entriesWithoutDocumentation, List.map_cons, List.lookup_cons, List.lookup_cons]
    cases uri == entry.1 with
    | true => rfl
    | false => exact induction

namespace ModuleCache

def withoutDocumentation (cache : ModuleCache) : ModuleCache :=
  { cache with entries := entriesWithoutDocumentation cache.entries }

theorem get?_withoutDocumentation (cache : ModuleCache) (uri : String) :
    cache.withoutDocumentation.get? uri
      = (cache.get? uri).map ModuleRecord.withoutDocumentation :=
  lookup_entriesWithoutDocumentation cache.entries uri

theorem insertIfNew_withoutDocumentation (cache : ModuleCache) (record : ModuleRecord) :
    (cache.withoutDocumentation.insertIfNew record.withoutDocumentation).2
      = (cache.insertIfNew record).2.withoutDocumentation := by
  have named : record.withoutDocumentation.uri = record.uri := rfl
  rw [insertIfNew, insertIfNew, named, get?_withoutDocumentation]
  cases cache.get? record.uri with
  | some kept => rfl
  | none =>
    simp only [Option.map_none, withoutDocumentation, entriesWithoutDocumentation,
      List.map_append, List.map_cons, List.map_nil]

end ModuleCache

namespace CrawlResult

def withoutDocumentation (result : CrawlResult) : CrawlResult :=
  ⟨entriesWithoutDocumentation result.entries⟩

theorem get?_withoutDocumentation (result : CrawlResult) (uri : String) :
    result.withoutDocumentation.get? uri
      = (result.get? uri).map ModuleRecord.withoutDocumentation :=
  lookup_entriesWithoutDocumentation result.entries uri

theorem contains_withoutDocumentation (result : CrawlResult) (uri : String) :
    result.withoutDocumentation.contains uri = result.contains uri := by
  rw [contains, contains, get?_withoutDocumentation, Option.isSome_map]

theorem insert_withoutDocumentation (result : CrawlResult) (record : ModuleRecord) :
    result.withoutDocumentation.insert record.withoutDocumentation
      = (result.insert record).withoutDocumentation := by
  have inserted : ∀ entries : List (String × ModuleRecord),
      insertInto record.withoutDocumentation (entriesWithoutDocumentation entries)
        = entriesWithoutDocumentation (insertInto record entries) := by
    intro entries
    induction entries with
    | nil => rfl
    | cons entry rest induction =>
      have named : record.withoutDocumentation.uri = record.uri := rfl
      simp only [entriesWithoutDocumentation] at induction
      simp only [entriesWithoutDocumentation, List.map_cons, insertInto, named]
      split
      · rfl
      · rw [List.map_cons, induction]
  exact congrArg CrawlResult.mk (inserted result.entries)

end CrawlResult

/-! ## Pending modules and expansions -/

def Pending.withoutDocumentation (pending : Pending) : Pending :=
  { pending with importer := pending.importer.withoutDocumentation }

theorem Module.pending_withoutDocumentation (module : Module) :
    module.withoutDocumentation.pending = module.pending.map Pending.withoutDocumentation := by
  rw [pending, pending, List.map_filterMap]
  congr 1
  funext request
  rw [Option.map_map]
  rfl

namespace Expansion

def withoutDocumentation (expansion : Expansion) : Expansion :=
  { expansion with
    outcome := expansion.outcome.map (List.map Pending.withoutDocumentation) }

theorem prepend_withoutDocumentation (request : ImportRequest) (pending : Pending)
    (expansion : Expansion) :
    (expansion.prepend request pending).withoutDocumentation
      = expansion.withoutDocumentation.prepend request pending.withoutDocumentation := by
  rcases expansion with ⟨outcome, requests, history⟩
  cases outcome <;> rfl

theorem ofRequests_withoutDocumentation (world : World) (module : Module)
    (requests : List ImportRequest) (history : History) :
    ofRequests world module.withoutDocumentation history requests
      = (ofRequests world module history requests).withoutDocumentation := by
  induction requests generalizing history with
  | nil => rfl
  | cons request rest induction =>
    have asked : world.source history module.withoutDocumentation request
        = world.source history module request := rfl
    have named : module.withoutDocumentation.uri = module.uri := rfl
    simp only [ofRequests, asked, named]
    cases request.target with
    | some target =>
      simp only [induction, prepend_withoutDocumentation]
      rfl
    | none =>
      cases world.source history module request with
      | error fault => rfl
      | ok source =>
        simp only [induction, prepend_withoutDocumentation]
        rfl

theorem ofModule_withoutDocumentation (world : World) (module : Module) (history : History) :
    ofModule world module.withoutDocumentation history
      = (ofModule world module history).withoutDocumentation :=
  ofRequests_withoutDocumentation world module module.table.imports history

end Expansion

/-! ## Crawls -/

namespace Crawl

def withoutDocumentation (crawl : Crawl) : Crawl where
  result := crawl.result.withoutDocumentation
  queue := crawl.queue.map Pending.withoutDocumentation
  cache := crawl.cache.withoutDocumentation
  history := crawl.history
  failure := crawl.failure

variable (configuration : Configuration) (world : World) (crawl : Crawl)

theorem accept_withoutDocumentation (record : ModuleRecord) (found : List Pending) :
    (crawl.accept record found).withoutDocumentation
      = crawl.withoutDocumentation.accept record.withoutDocumentation
          (found.map Pending.withoutDocumentation) := by
  simp only [accept, withoutDocumentation, CrawlResult.insert_withoutDocumentation,
    List.map_append]

theorem keep_withoutDocumentation (module : Module) (found : List Pending) :
    (crawl.keep module found).withoutDocumentation
      = crawl.withoutDocumentation.keep module.withoutDocumentation
          (found.map Pending.withoutDocumentation) := by
  have recorded : ∀ record : ModuleRecord, (ModuleRecord.withoutDocumentation record).uri
      = record.uri := fun _ => rfl
  have named : (crawl.withoutDocumentation.cache.record module.withoutDocumentation)
      = ((crawl.cache.record module).1.withoutDocumentation,
          (crawl.cache.record module).2.withoutDocumentation) := rfl
  simp only [keep, named, recorded, ModuleCache.get?_withoutDocumentation]
  cases (crawl.cache.record module).2.get? (crawl.cache.record module).1.uri with
  | some kept =>
    simp only [Option.map_some, accept_withoutDocumentation, ModuleRecord.withoutDocumentation,
      Module.pending_withoutDocumentation]
    rfl
  | none =>
    simp only [Option.map_none, accept_withoutDocumentation,
      ModuleCache.insertIfNew_withoutDocumentation]
    rfl

theorem expand_withoutDocumentation (module : Module) :
    (crawl.expand world module).withoutDocumentation
      = crawl.withoutDocumentation.expand world module.withoutDocumentation := by
  have history : crawl.withoutDocumentation.history = crawl.history := rfl
  simp only [expand, history, Expansion.ofModule_withoutDocumentation]
  generalize Expansion.ofModule world module crawl.history = expansion
  rcases expansion with ⟨outcome, requests, asked⟩
  cases outcome with
  | error fault => rfl
  | ok found => exact keep_withoutDocumentation _ _ _

variable {world} in
theorem load_withoutDocumentation (undisturbed : world.IsUndisturbed) (source : ModuleSource) :
    (crawl.load configuration world source).withoutDocumentation
      = crawl.withoutDocumentation.load (configuration.keeping false) world source := by
  have history : crawl.withoutDocumentation.history = crawl.history := rfl
  unfold World.IsUndisturbed at undisturbed
  simp only [load, undisturbed, World.undisturbed, history,
    ← World.load_withoutDocumentation world configuration]
  cases world.load configuration (crawl.history ++ [.load source.uri]) source with
  | error fault => rfl
  | ok module => exact expand_withoutDocumentation world _ module

variable {world} in
theorem relocate_withoutDocumentation (undisturbed : world.IsUndisturbed) (pending : Pending) :
    (crawl.relocate configuration world pending).withoutDocumentation
      = crawl.withoutDocumentation.relocate (configuration.keeping false) world
          pending.withoutDocumentation := by
  have asked : world.source crawl.withoutDocumentation.history
      pending.withoutDocumentation.importer pending.withoutDocumentation.request
        = world.source crawl.history pending.importer pending.request := rfl
  have named : pending.withoutDocumentation.uri = pending.uri := rfl
  simp only [relocate, asked, named]
  cases world.source crawl.history pending.importer pending.request with
  | error fault => rfl
  | ok source =>
    dsimp only
    split
    · exact load_withoutDocumentation configuration _ undisturbed source
    · rfl

variable {world} in
theorem visit_withoutDocumentation (undisturbed : world.IsUndisturbed) (pending : Pending) :
    (crawl.visit configuration world pending).withoutDocumentation
      = crawl.withoutDocumentation.visit (configuration.keeping false) world
          pending.withoutDocumentation := by
  have known : crawl.withoutDocumentation.result.contains pending.withoutDocumentation.uri
      = crawl.result.contains pending.uri :=
    crawl.result.contains_withoutDocumentation pending.uri
  have cached : crawl.withoutDocumentation.cache.get? pending.withoutDocumentation.uri
      = (crawl.cache.get? pending.uri).map ModuleRecord.withoutDocumentation :=
    crawl.cache.get?_withoutDocumentation pending.uri
  have held : pending.withoutDocumentation.source = pending.source := rfl
  simp only [visit, known, cached, held]
  split
  · rfl
  · cases crawl.cache.get? pending.uri with
    | some record =>
      simp only [Option.map_some, accept_withoutDocumentation,
        ← Module.pending_withoutDocumentation]
      rfl
    | none =>
      cases pending.source with
      | some source => exact load_withoutDocumentation configuration crawl undisturbed source
      | none => exact relocate_withoutDocumentation configuration crawl undisturbed pending

variable {world} in
theorem step_withoutDocumentation (undisturbed : world.IsUndisturbed) :
    (crawl.step configuration world).withoutDocumentation
      = crawl.withoutDocumentation.step (configuration.keeping false) world := by
  rcases crawl with ⟨result, queue, cache, history, failure⟩
  cases failure with
  | some fault => rfl
  | none =>
    cases queue with
    | nil => rfl
    | cons pending rest =>
      exact visit_withoutDocumentation configuration _ undisturbed pending

variable {world} in
theorem run_withoutDocumentation (undisturbed : world.IsUndisturbed) (count : Nat) :
    (crawl.run configuration world count).withoutDocumentation
      = crawl.withoutDocumentation.run (configuration.keeping false) world count := by
  induction count generalizing crawl with
  | zero => rfl
  | succ count induction =>
    rw [run, run, induction, step_withoutDocumentation configuration crawl undisturbed]

theorem start_withoutDocumentation (cache : ModuleCache) (root : ModuleRecord) :
    (start world cache root).withoutDocumentation
      = start world cache.withoutDocumentation root.withoutDocumentation := by
  have module : root.withoutDocumentation.module = root.module.withoutDocumentation := rfl
  simp only [start, expandedRoot, module, Expansion.ofModule_withoutDocumentation]
  generalize Expansion.ofModule world root.module [] = expansion
  rcases expansion with ⟨outcome, requests, history⟩
  cases outcome with
  | error fault => rfl
  | ok found =>
    simp only [withoutDocumentation, ← ModuleCache.insertIfNew_withoutDocumentation]
    rfl

theorem outcome?_withoutDocumentation :
    crawl.withoutDocumentation.outcome?
      = crawl.outcome?.map (Except.map CrawlResult.withoutDocumentation) := by
  rcases crawl with ⟨result, queue, cache, history, failure⟩
  cases failure with
  | some fault => rfl
  | none => cases queue <;> rfl

end Crawl

/-! ## References -/

def SymbolUse.withoutDocumentation (use : SymbolUse) : SymbolUse :=
  { use with importer := use.importer.withoutDocumentation }

namespace CrawlResult

theorem symbolUses_withoutDocumentation (result : CrawlResult) :
    result.withoutDocumentation.symbolUses
      = result.symbolUses.map SymbolUse.withoutDocumentation := by
  simp only [symbolUses, records, withoutDocumentation, entriesWithoutDocumentation, List.map_map,
    List.flatMap_map, List.map_flatMap, Module.symbolUses]
  rfl

theorem declaration_withoutDocumentation (result : CrawlResult) (use : SymbolUse) :
    result.withoutDocumentation.declaration use.withoutDocumentation = result.declaration use := by
  have request : use.withoutDocumentation.request = use.request := rfl
  simp only [declaration, request]
  cases use.request.target with
  | none => rfl
  | some target =>
    simp only [get?_withoutDocumentation]
    cases result.get? target <;> rfl

theorem collect_withoutDocumentation (result : CrawlResult) (references : References)
    (uses : List SymbolUse) :
    result.withoutDocumentation.collect references (uses.map SymbolUse.withoutDocumentation)
      = result.collect references uses := by
  induction uses generalizing references with
  | nil => rfl
  | cons use rest induction =>
    rw [List.map_cons, collect, collect, declaration_withoutDocumentation]
    cases result.declaration use with
    | error fault => rfl
    | ok symbol => exact induction _

theorem references_withoutDocumentation (result : CrawlResult) :
    result.withoutDocumentation.references = result.references := by
  rw [references, references, symbolUses_withoutDocumentation, collect_withoutDocumentation]

end CrawlResult

end ServiceModules
