import Mathlib
import ServiceModules.Proofs.Crawl.Integrity
import ServiceModules.Proofs.Diagnostic.Pointing
import ServiceModules.Workspace

/-!
Faults that a crawl comes to point into the text of the module that they are about. An import
request travels with its importer, through the queue and through the cache, so that a fault never
pairs the place of a request with the text of another module.
-/

namespace ServiceModules

/-- What is known of the texts of modules: the module `uri` has the text `text`. -/
abbrev Texts := String → String → Prop

variable {texts : Texts} {configuration : Configuration} {world : World}

/-- The fault points into a known text, unless it is not about a text or has no place in it. -/
def Fault.IsSound (texts : Texts) (fault : Fault) : Prop :=
  ∀ report, fault.report? = some report → report.diagnostic.location ≠ none →
    ∃ uri text, texts uri text ∧ fault.PointsInto uri text

structure Module.IsOf (module : Module) (texts : Texts) : Prop where
  read : module.IsRead
  known : texts module.uri module.text

def ModuleCache.IsOf (cache : ModuleCache) (texts : Texts) : Prop :=
  ∀ entry ∈ cache.entries, entry.2.module.IsOf texts

def World.Locates (world : World) (source : ModuleSource) : Prop :=
  ∃ history requester path, world.locate history requester path = .ok (.found source)

/-- The world knows these texts. What it does not find is what was asked for, its own faults are not
about texts, and what others put into the cache was read from known texts, too. -/
structure World.IsFaithful (world : World) (configuration : Configuration) (texts : Texts) :
    Prop where
  named : ∀ history requester path missing,
    world.locate history requester path = .ok (.missing missing) →
      missing.path = path ∧ missing.requester = requester
  lost : ∀ history requester path fault,
    world.locate history requester path = .error fault → fault.report? = none
  unread : ∀ history source fault, world.read history source = .error fault → fault.report? = none
  known : ∀ history source bytes text, world.Locates source →
    world.read history source = .ok bytes →
    Charset.decodeNamed configuration.charset bytes = .ok text → texts source.uri text
  interrupted : ∀ uri cache fault, (world.meanwhile uri cache).1 = some fault →
    fault.report? = none
  cached : ∀ uri cache, cache.IsOf texts → (world.meanwhile uri cache).2.IsOf texts

theorem Fault.isSound_of_report? {fault : Fault} (silent : fault.report? = none) :
    fault.IsSound texts := by
  intro report reported
  rw [silent] at reported
  cases reported

theorem Module.IsOf.of_unbound_eq {module other : Module} (isOf : module.IsOf texts)
    (same : other.unbound = module.unbound) : other.IsOf texts where
  read := isRead_of_unbound_eq same isOf.read
  known := by
    rw [← unbound_uri other, ← unbound_text other, same]
    exact isOf.known

/-! ## Imports that lead nowhere -/

def Module.Requests (module : Module) (request : ImportRequest) : Prop :=
  request.unbound ∈ module.unbound.table.imports

theorem Module.requests_of_mem {module : Module} {request : ImportRequest}
    (member : request ∈ module.table.imports) : module.Requests request :=
  List.mem_map_of_mem member

theorem World.isSound_of_source (faithful : world.IsFaithful configuration texts)
    {history : History} {importer : Module} {request : ImportRequest} {fault : Fault}
    (isOf : importer.IsOf texts) (requests : importer.Requests request)
    (failed : world.source history importer request = .error fault) : fault.IsSound texts := by
  rw [source] at failed
  split at failed
  · next lost =>
    cases failed
    exact Fault.isSound_of_report? (faithful.lost _ _ _ _ lost)
  · next missing notFound =>
    cases failed
    rcases faithful.named _ _ _ _ notFound with ⟨path, requester⟩
    rcases isOf.read.exists_request requests with ⟨span, placed, covers⟩
    intro report reported located
    refine ⟨importer.uri, importer.text, isOf.known, _, _, rfl,
      Report.pointsInto_of_span placed rfl ⟨_, covers⟩, span, ?_, ?_⟩
    · rw [requester]
    · rw [path]
      exact covers
  · cases failed

/-! ## Modules that are loaded -/

theorem Module.isSound_of_ofBytes {uri : String} {bytes : Bytes} {fault : Fault}
    (known : ∀ text, Charset.decodeNamed configuration.charset bytes = .ok text → texts uri text)
    (failed : ofBytes configuration uri bytes = .error fault) : fault.IsSound texts := by
  rw [ofBytes] at failed
  split at failed
  · next text decoded =>
    exact fun _ _ _ => ⟨uri, text, known text decoded, pointsInto_of_ofText failed⟩
  · cases failed
    rintro report ⟨⟩ located
    exact absurd rfl located
  · cases failed
    exact Fault.isSound_of_report? rfl

theorem World.isSound_of_load (faithful : world.IsFaithful configuration texts)
    {history : History} {source : ModuleSource} (locates : world.Locates source) {fault : Fault}
    (failed : world.load configuration history source = .error fault) : fault.IsSound texts := by
  rw [load] at failed
  split at failed
  · next unread =>
    cases failed
    exact Fault.isSound_of_report? (faithful.unread _ _ _ unread)
  · next bytes read =>
    exact Module.isSound_of_ofBytes
      (fun text decoded => faithful.known _ _ _ _ locates read decoded) failed

theorem World.isOf_of_load (faithful : world.IsFaithful configuration texts) {history : History}
    {source : ModuleSource} (locates : world.Locates source) {module : Module}
    (loaded : world.load configuration history source = .ok module) : module.IsOf texts := by
  rw [load] at loaded
  split at loaded
  · cases loaded
  · next bytes read =>
    rcases Module.ofText_of_ofBytes_eq_ok loaded with ⟨text, decoded, readText⟩
    refine ⟨Module.isRead_of_ofBytes_eq_ok loaded, ?_⟩
    rw [Module.uri_of_ofText_eq_ok readText, Module.text_of_ofText_eq_ok readText]
    exact faithful.known _ _ _ _ locates read decoded

/-! ## Expansions -/

structure Pending.IsOf (pending : Pending) (world : World) (texts : Texts) : Prop where
  importer : pending.importer.IsOf texts
  requests : pending.importer.Requests pending.request
  located : ∀ source, pending.source = some source → world.Locates source

theorem Module.isOf_of_mem_pending {module : Module} (isOf : module.IsOf texts)
    {pending : Pending} (member : pending ∈ module.pending) : pending.IsOf world texts := by
  rcases mem_pending member with ⟨isRequest, _, importer, source⟩
  refine ⟨by rw [importer]; exact isOf, by rw [importer]; exact requests_of_mem isRequest, ?_⟩
  intro other held
  rw [source] at held
  cases held

theorem World.locates_of_source {history : History} {importer : Module} {request : ImportRequest}
    {source : ModuleSource} (found : world.source history importer request = .ok source) :
    world.Locates source := by
  rw [World.source] at found
  split at found
  · cases found
  · cases found
  · next located =>
    cases found
    exact ⟨_, _, _, located⟩

theorem Expansion.Succeeds.isOf {module : Module} (isOf : module.IsOf texts) {history : History}
    {before after : List ImportRequest} {found : List Pending}
    (succeeds : Succeeds world module history before after found)
    (requests : ∀ request ∈ before, module.Requests request) :
    ∀ pending ∈ found, pending.IsOf world texts := by
  induction succeeds with
  | none => simp
  | @bound history request target rest restAfter found bound _ induction =>
      intro pending member
      rcases List.mem_cons.mp member with rfl | member
      · exact ⟨isOf, requests request (List.mem_cons_self ..), nofun⟩
      · exact induction (fun other isIn => requests other (List.mem_cons_of_mem _ isIn)) pending
          member
  | @located history request source rest restAfter found free located _ induction =>
      intro pending member
      rcases List.mem_cons.mp member with rfl | member
      · refine ⟨isOf, requests request (List.mem_cons_self ..), ?_⟩
        rintro other ⟨⟩
        exact World.locates_of_source located
      · exact induction (fun other isIn => requests other (List.mem_cons_of_mem _ isIn)) pending
          member

theorem Expansion.isSound_of_ofRequests (faithful : world.IsFaithful configuration texts)
    {module : Module} (isOf : module.IsOf texts) {history : History}
    {requests : List ImportRequest} (own : ∀ request ∈ requests, module.Requests request)
    {fault : Fault} (failed : (ofRequests world module history requests).outcome = .error fault) :
    fault.IsSound texts := by
  induction requests generalizing history with
  | nil => cases failed
  | cons request rest induction =>
      have ownRest := fun other isIn => own other (List.mem_cons_of_mem request isIn)
      have prepended : ∀ {history : History} {bound : ImportRequest} {pending : Pending},
          ((ofRequests world module history rest).prepend bound pending).outcome = .error fault →
          fault.IsSound texts := by
        intro history bound pending failed
        rw [prepend_outcome] at failed
        cases outcome : (ofRequests world module history rest).outcome with
        | ok found =>
            rw [outcome] at failed
            cases failed
        | error other =>
            rw [outcome] at failed
            cases failed
            exact induction ownRest outcome
      cases bound : request.target with
      | some target =>
          rw [ofRequests_cons_bound bound] at failed
          exact prepended failed
      | none =>
          cases located : world.source history module request with
          | ok source =>
              rw [ofRequests_cons_ok bound located] at failed
              exact prepended failed
          | error other =>
              rw [ofRequests_cons_error bound located] at failed
              cases failed
              exact World.isSound_of_source faithful isOf (own request (List.mem_cons_self ..))
                located

/-! ## The invariant of a crawl -/

namespace Crawl

structure IsSound (crawl : Crawl) (world : World) (texts : Texts) : Prop where
  reached : ∀ record ∈ crawl.result.records, record.module.IsOf texts
  cached : crawl.cache.IsOf texts
  queued : ∀ pending ∈ crawl.queue, pending.IsOf world texts
  failed : ∀ fault, crawl.failure = some fault → fault.IsSound texts

end Crawl

theorem CrawlResult.mem_insertInto {record : ModuleRecord} {entries : List (String × ModuleRecord)}
    {entry : String × ModuleRecord} (member : entry ∈ insertInto record entries) :
    entry.2 = record ∨ entry ∈ entries := by
  induction entries with
  | nil =>
      rw [List.mem_singleton.mp member]
      exact .inl rfl
  | cons first rest induction =>
      rw [insertInto] at member
      split at member
      · rcases List.mem_cons.mp member with rfl | member
        · exact .inl rfl
        · exact .inr (List.mem_cons_of_mem _ member)
      · rcases List.mem_cons.mp member with rfl | member
        · exact .inr (List.mem_cons_self ..)
        · rcases induction member with same | inside
          · exact .inl same
          · exact .inr (List.mem_cons_of_mem _ inside)

theorem CrawlResult.mem_records_insert {result : CrawlResult} {record other : ModuleRecord}
    (member : other ∈ (result.insert record).records) :
    other = record ∨ other ∈ result.records := by
  rcases List.mem_map.mp member with ⟨entry, isIn, rfl⟩
  rcases mem_insertInto isIn with same | inside
  · exact .inl same
  · exact .inr (List.mem_map_of_mem inside)

theorem ModuleCache.IsOf.insertIfNew {cache : ModuleCache} (isOf : cache.IsOf texts)
    {record : ModuleRecord} (recordIsOf : record.module.IsOf texts) :
    (cache.insertIfNew record).2.IsOf texts := by
  intro entry member
  rcases entries_insertIfNew cache record with same | ⟨_, inserted⟩
  · rw [same] at member
    exact isOf entry member
  · rw [inserted] at member
    rcases List.mem_append.mp member with member | member
    · exact isOf entry member
    · rw [List.mem_singleton.mp member]
      exact recordIsOf

namespace Crawl

variable {crawl : Crawl}

theorem IsSound.fail (sound : crawl.IsSound world texts) {fault : Fault}
    (faultSound : fault.IsSound texts) : (crawl.fail fault).IsSound world texts where
  reached := sound.reached
  cached := sound.cached
  queued := sound.queued
  failed := by
    rintro other ⟨⟩
    exact faultSound

theorem IsSound.asked (sound : crawl.IsSound world texts) (history : History) :
    IsSound { crawl with history := history } world texts := { sound with }

theorem IsSound.brought (sound : crawl.IsSound world texts) {cache : ModuleCache}
    (isOf : cache.IsOf texts) : IsSound { crawl with cache := cache } world texts :=
  { sound with cached := isOf }

theorem IsSound.accept (sound : crawl.IsSound world texts) {record : ModuleRecord}
    (isOf : record.module.IsOf texts) {found : List Pending}
    (foundIsOf : ∀ pending ∈ found, pending.IsOf world texts) :
    (crawl.accept record found).IsSound world texts where
  reached := by
    intro other member
    rcases CrawlResult.mem_records_insert member with rfl | member
    · exact isOf
    · exact sound.reached other member
  cached := sound.cached
  queued := by
    intro pending member
    rcases List.mem_append.mp member with member | member
    · exact sound.queued pending member
    · exact foundIsOf pending member
  failed := sound.failed

theorem IsSound.acceptCached (sound : crawl.IsSound world texts) {uri : String}
    {record : ModuleRecord} (hit : crawl.cache.get? uri = some record) :
    (crawl.accept record record.module.pending).IsSound world texts := by
  have isOf : record.module.IsOf texts :=
    sound.cached (uri, record) (ModuleCache.mem_entries_of_get? hit)
  exact sound.accept isOf fun pending member => Module.isOf_of_mem_pending isOf member

theorem IsSound.keep (sound : crawl.IsSound world texts) {module : Module}
    (isOf : module.IsOf texts) {found : List Pending}
    (foundIsOf : ∀ pending ∈ found, pending.IsOf world texts) :
    (crawl.keep module found).IsSound world texts := by
  rw [Crawl.keep]
  simp only [ModuleCache.record]
  split
  · next record kept =>
    have counted : IsSound { crawl with cache := ⟨crawl.cache.entries, crawl.cache.next + 1⟩ }
        world texts := sound.brought sound.cached
    exact counted.acceptCached kept
  · have counted : ModuleCache.IsOf ⟨crawl.cache.entries, crawl.cache.next + 1⟩ texts :=
      sound.cached
    exact (sound.brought (counted.insertIfNew isOf)).accept isOf foundIsOf

theorem IsSound.expand (sound : crawl.IsSound world texts)
    (faithful : world.IsFaithful configuration texts) {module : Module}
    (isOf : module.IsOf texts) : (crawl.expand world module).IsSound world texts := by
  have own := fun request member => @Module.requests_of_mem module request member
  rw [Crawl.expand]
  split
  · next fault failed =>
    exact (sound.asked _).fail (Expansion.isSound_of_ofRequests faithful isOf own failed)
  · next found succeeded =>
    refine (sound.asked _).keep (isOf.of_unbound_eq (Expansion.expanded_unbound ..)) ?_
    exact (Expansion.succeeds_of_ofModule_eq_ok succeeded).isOf isOf own

theorem IsSound.load (sound : crawl.IsSound world texts)
    (faithful : world.IsFaithful configuration texts) {source : ModuleSource}
    (locates : world.Locates source) :
    (crawl.load configuration world source).IsSound world texts := by
  have asked := (sound.brought (faithful.cached source.uri crawl.cache sound.cached)).asked
    (crawl.history ++ [Question.load source.uri])
  rw [Crawl.load]
  simp only
  split
  · next fault interrupted =>
    exact asked.fail (Fault.isSound_of_report? (faithful.interrupted _ _ _ interrupted))
  · split
    · next fault failed =>
      exact asked.fail (World.isSound_of_load faithful locates failed)
    · next module loaded =>
      exact asked.expand faithful (World.isOf_of_load faithful locates loaded)

theorem IsSound.relocate (sound : crawl.IsSound world texts)
    (faithful : world.IsFaithful configuration texts) {pending : Pending}
    (isOf : pending.IsOf world texts) :
    (crawl.relocate configuration world pending).IsSound world texts := by
  rw [Crawl.relocate]
  split
  · next fault failed =>
    exact (sound.asked _).fail
      (World.isSound_of_source faithful isOf.importer isOf.requests failed)
  · next source found =>
    split
    · exact (sound.asked _).load faithful (World.locates_of_source found)
    · exact (sound.asked _).fail (Fault.isSound_of_report? rfl)

theorem IsSound.visit (sound : crawl.IsSound world texts)
    (faithful : world.IsFaithful configuration texts) {pending : Pending}
    (isOf : pending.IsOf world texts) :
    (crawl.visit configuration world pending).IsSound world texts := by
  rw [Crawl.visit]
  split
  · exact sound
  · split
    · next record hit => exact sound.acceptCached hit
    · split
      · next source held => exact sound.load faithful (isOf.located source held)
      · exact sound.relocate faithful isOf

theorem IsSound.step (sound : crawl.IsSound world texts)
    (faithful : world.IsFaithful configuration texts) :
    (crawl.step configuration world).IsSound world texts := by
  rw [Crawl.step]
  split
  · next pending rest running queue =>
    have waits : ∀ other ∈ pending :: rest, other.IsOf world texts := queue ▸ sound.queued
    have shorter : IsSound { crawl with queue := rest } world texts :=
      { sound with queued := fun other member => waits other (List.mem_cons_of_mem _ member) }
    exact shorter.visit faithful (waits pending (List.mem_cons_self ..))
  · exact sound

theorem IsSound.run (sound : crawl.IsSound world texts)
    (faithful : world.IsFaithful configuration texts) (count : Nat) :
    (crawl.run configuration world count).IsSound world texts := by
  induction count generalizing crawl with
  | zero => exact sound
  | succ count induction => exact induction (sound.step faithful)

theorem isSound_start (faithful : world.IsFaithful configuration texts) {cache : ModuleCache}
    (cacheIsOf : cache.IsOf texts) {root : ModuleRecord} (isOf : root.module.IsOf texts) :
    (start world cache root).IsSound world texts := by
  have expanded : (expandedRoot world root).module.IsOf texts :=
    isOf.of_unbound_eq (Expansion.expanded_unbound ..)
  have own := fun request member => @Module.requests_of_mem root.module request member
  have reached : ∀ record ∈ (CrawlResult.empty.insert (expandedRoot world root)).records,
      record.module.IsOf texts := by
    intro record member
    rw [List.mem_singleton.mp member]
    exact expanded
  rw [start]
  split
  · next fault failed =>
    exact
      { reached := reached
        cached := cacheIsOf
        queued := by
          intro pending member
          cases member
        failed := by
          intro other failedWith
          cases failedWith
          exact Expansion.isSound_of_ofRequests faithful isOf own failed }
  · next found succeeded =>
    exact
      { reached := reached
        cached := cacheIsOf.insertIfNew expanded
        queued := (Expansion.succeeds_of_ofModule_eq_ok succeeded).isOf isOf own
        failed := by simp }

end Crawl

/-! ## Names that are not declared -/

theorem Module.mem_symbolUses {module : Module} {use : SymbolUse} :
    use ∈ module.symbolUses ↔ use.importer = module ∧ use.request ∈ module.table.imports ∧
      use.symbol ∈ use.request.symbols := by
  rcases use with ⟨importer, request, symbol⟩
  simp only [symbolUses, SymbolTable.importedSymbols, List.mem_map, List.mem_flatMap,
    SymbolUse.mk.injEq, Prod.exists, Prod.mk.injEq]
  constructor
  · rintro ⟨_, _, ⟨_, isRequest, _, inside, rfl, rfl⟩, rfl, rfl, rfl⟩
    exact ⟨rfl, isRequest, inside⟩
  · rintro ⟨rfl, isRequest, inside⟩
    exact ⟨request, symbol, ⟨request, isRequest, symbol, inside, rfl, rfl⟩, rfl, rfl, rfl⟩

theorem CrawlResult.isSound_of_declaration {result : CrawlResult} {use : SymbolUse} {fault : Fault}
    (isOf : use.importer.IsOf texts) (uses : use ∈ use.importer.symbolUses)
    (failed : result.declaration use = .error fault) : fault.IsSound texts := by
  rw [declaration] at failed
  split at failed
  · cases failed
    exact Fault.isSound_of_report? rfl
  · split at failed
    · cases failed
      exact Fault.isSound_of_report? rfl
    · split at failed
      · cases failed
      · cases failed
        -- The text that is shown is that of the importer, which the symbol was read in.
        rcases Module.mem_symbolUses.mp uses with ⟨_, isRequest, inside⟩
        rcases isOf.read.exists_symbol isRequest inside with ⟨span, rest, placed, covers⟩
        exact fun _ _ _ => ⟨use.importer.uri, use.importer.text, isOf.known, _, _, rfl,
          Report.pointsInto_of_span placed rfl ⟨_, covers⟩, span, rest, rfl, covers⟩

theorem CrawlResult.isSound_of_collect {result : CrawlResult} {uses : List SymbolUse}
    (own : ∀ use ∈ uses, use.importer.IsOf texts ∧ use ∈ use.importer.symbolUses)
    {references : References} {fault : Fault}
    (failed : result.collect references uses = .error fault) : fault.IsSound texts := by
  induction uses generalizing references with
  | nil => cases failed
  | cons use rest induction =>
      rcases own use (List.mem_cons_self ..) with ⟨isOf, isUse⟩
      rw [collect] at failed
      split at failed
      · next other undeclared =>
        cases failed
        exact isSound_of_declaration isOf isUse undeclared
      · exact induction (fun other member => own other (List.mem_cons_of_mem _ member)) failed

theorem CrawlResult.isSound_of_references {result : CrawlResult}
    (isOf : ∀ record ∈ result.records, record.module.IsOf texts) {fault : Fault}
    (failed : result.references = .error fault) : fault.IsSound texts := by
  refine isSound_of_collect ?_ failed
  intro use member
  rcases List.mem_flatMap.mp member with ⟨record, isRecord, uses⟩
  rcases Module.mem_symbolUses.mp uses with ⟨importer, _⟩
  rw [importer]
  exact ⟨isOf record isRecord, uses⟩

/-! ## Workspaces -/

namespace Workspace

/-- The texts that a crawl comes across in a workspace: that of the root, those of the modules in
the cache, and what can be read where the finder leads to. -/
inductive Holds (workspace : Workspace) (finder : Finder) (configuration : Configuration)
    (root : Module) : Texts
  | root : Holds workspace finder configuration root root.uri root.text
  | cached {entry : String × ModuleRecord} (member : entry ∈ workspace.cache.entries) :
      Holds workspace finder configuration root entry.2.module.uri entry.2.module.text
  | found {requester text : String} {path : ImportPath} {source : ModuleSource} {bytes : Bytes}
      (found : workspace.findWith finder requester path = .ok (.found source))
      (read : workspace.read source = .ok bytes)
      (decoded : Charset.decodeNamed configuration.charset bytes = .ok text) :
      Holds workspace finder configuration root source.uri text

variable {workspace : Workspace} {finder : Finder} {requester : String} {path : ImportPath}

theorem eq_of_findWith_eq_missing {missing : MissingModule}
    (notFound : workspace.findWith finder requester path = .ok (.missing missing)) :
    missing.path = path ∧ missing.requester = requester := by
  cases finder with
  | memory modules =>
      simp only [findWith, MemoryModules.find] at notFound
      split at notFound
      · cases notFound
      · cases notFound
        exact ⟨rfl, rfl⟩
      · next name _ =>
        split at notFound
        · cases notFound
          exact ⟨rfl, rfl⟩
        · next content _ =>
          cases sourced : modules.source name content <;> rw [sourced] at notFound <;>
            cases notFound
  | files packagePaths =>
      simp only [findWith, FileModules.find] at notFound
      split at notFound
      · cases notFound
      · split at notFound <;> cases notFound
        exact ⟨rfl, rfl⟩

theorem report?_of_findWith_eq_error {fault : Fault}
    (lost : workspace.findWith finder requester path = .error fault) : fault.report? = none := by
  cases finder with
  | memory modules =>
      simp only [findWith, MemoryModules.find] at lost
      split at lost
      · cases lost
        rfl
      · cases lost
      · split at lost
        · cases lost
        · simp only [MemoryModules.source] at lost
          split at lost <;> cases lost
          rfl
  | files packagePaths =>
      simp only [findWith, FileModules.find] at lost
      split at lost
      · cases lost
        rfl
      · split at lost <;> cases lost
        rfl

theorem report?_of_read_eq_error {source : ModuleSource} {fault : Fault}
    (unread : workspace.read source = .error fault) : fault.report? = none := by
  simp only [read, FileModules.read] at unread
  split at unread
  · cases unread
  · next path _ =>
    cases content : workspace.tree.read workspace.current path <;> rw [content] at unread <;>
      cases unread
    rfl

theorem isFaithful_world (workspace : Workspace) (finder : Finder) (configuration : Configuration)
    (root : Module) :
    (workspace.world finder).IsFaithful configuration
      (workspace.Holds finder configuration root) where
  named := fun _ _ _ _ notFound => eq_of_findWith_eq_missing notFound
  lost := fun _ _ _ _ lost => report?_of_findWith_eq_error lost
  unread := fun _ _ _ unread => report?_of_read_eq_error unread
  known := by
    rintro _ source bytes text ⟨_, requester, path, found⟩ read decoded
    exact .found found read decoded
  interrupted := nofun
  cached := fun _ _ isOf => isOf

end Workspace

/-! ## All faults -/

/-- The ways in which a fault about the text of a module comes up. -/
inductive Fault.Raised (texts : Texts) : Fault → Prop
  /-- The text of a module is read, and its symbol table is built. -/
  | reading {keepsDocumentation : Bool} {uri text : String} {fault : Fault}
      (known : texts uri text) (failed : Module.ofText keepsDocumentation uri text = .error fault) :
      Raised texts fault
  /-- Modules are crawled, from any root and with any cache of modules that were read. -/
  | crawling {configuration : Configuration} {world : World} {cache : ModuleCache}
      {root : ModuleRecord} {count : Nat} {fault : Fault}
      (faithful : world.IsFaithful configuration texts) (cacheIsOf : cache.IsOf texts)
      (rootIsOf : root.module.IsOf texts)
      (failed : ((Crawl.start world cache root).run configuration world count).outcome? =
        some (.error fault)) :
      Raised texts fault
  /-- The imported names of modules that were read are resolved. -/
  | resolving {result : CrawlResult} {fault : Fault}
      (isOf : ∀ record ∈ result.records, record.module.IsOf texts)
      (failed : result.references = .error fault) :
      Raised texts fault

/-- A fault with a place is about the text of a known module. Its report names a character of this
text and shows it, and it says of the text there what stands there. -/
theorem Fault.exists_text_of_raised {fault : Fault} {report : Report} (raised : Raised texts fault)
    (reported : fault.report? = some report) (located : report.diagnostic.location ≠ none) :
    ∃ uri text, texts uri text ∧ fault.PointsInto uri text := by
  have sound : fault.IsSound texts := by
    cases raised with
    | reading known failed => exact fun _ _ _ => ⟨_, _, known, Module.pointsInto_of_ofText failed⟩
    | crawling faithful cacheIsOf rootIsOf failed =>
        have begun := Crawl.isSound_start faithful cacheIsOf rootIsOf
        exact (begun.run faithful _).failed fault (Crawl.failure_of_outcome?_eq_error failed)
    | resolving isOf failed => exact CrawlResult.isSound_of_references isOf failed
  exact sound report reported located

/-! A root is bound to a module that is gone. Two statements import from it, and the first one of
them is shown. -/

namespace Workspace

def orphanText : String := "from b import X\nfrom b import Y\ntype A: X"

def orphan : ModuleRecord :=
  let read := (Module.ofText false "a" orphanText).toOption.getD default
  ⟨read.withImports (read.table.imports.map fun request => request.bind "b"), 0⟩

def deserted : Workspace :=
  { (default : Workspace) with finder := .memory ⟨[], "utf-8"⟩, lister := .fixed [] }

def orphanImport : UnlocatedImport where
  missing := ⟨⟨0, ["b"]⟩, ["memory:///b.mg"], "a"⟩
  location := some ⟨"a", 1, 6, 1, 7⟩
  text := orphanText
  suggestions := []
  modules := []

theorem orphan_isRead : orphan.module.IsRead := by
  have read : Module.ofText false "a" orphanText =
      .ok ((Module.ofText false "a" orphanText).toOption.getD default) := by cbv
  refine Module.isRead_of_unbound_eq ?_ (Module.isRead_of_ofText_eq_ok read)
  apply Module.unbound_withImports
  rw [List.map_map]
  rfl

theorem orphan_outcome :
    ((Crawl.start (deserted.world deserted.finder) deserted.cache orphan).run default
      (deserted.world deserted.finder) 1).outcome? = some (.error (.unlocated orphanImport)) := by
  cbv

theorem orphan_raised :
    Fault.Raised (deserted.Holds deserted.finder default orphan.module)
      (.unlocated orphanImport) := by
  refine .crawling (isFaithful_world ..) ?_ ⟨orphan_isRead, .root⟩ orphan_outcome
  intro entry member
  cases member

theorem exists_text_of_orphan :
    ∃ uri text, deserted.Holds deserted.finder default orphan.module uri text ∧
      (Fault.unlocated orphanImport).PointsInto uri text :=
  Fault.exists_text_of_raised orphan_raised rfl nofun

end Workspace

end ServiceModules
