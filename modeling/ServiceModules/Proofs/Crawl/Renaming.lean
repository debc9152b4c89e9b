import Mathlib.Data.List.Forall2
import ServiceModules.Crawl.Basic
import ServiceModules.Proofs.Crawl.Expansion
import ServiceModules.Proofs.Crawl.Records
import ServiceModules.Proofs.Module.Renaming

/-!
Crawls under other identifiers. Two worlds hold the same modules under different identifiers, and
keep them in different places. What is known of the imports that occur is enough for both worlds to
locate them alike, and what is located has no other imports.

Then two crawls from the same root go on side by side: they come to the same modules in the same
order, identifiers excepted, and when one of them fails the other one fails as well.
-/

namespace ServiceModules

section

variable (rename : String → String) (Known : String → ImportPath → Prop)
variable (Twins : ModuleSource → ModuleSource → Prop)

def Module.IsKnown (module : Module) : Prop :=
  ∀ request ∈ module.table.imports, Known module.uri request.path

/-- The worlds locate the imports that are known alike, and read what they have located alike. -/
structure World.RenamedTo (configuration : Configuration) (left right : World) : Prop where
  locate : ∀ history otherHistory requester path, Known requester path →
    (∃ source other, left.locate history requester path = .ok (.found source) ∧
        right.locate otherHistory (rename requester) path = .ok (.found other) ∧
        Twins source other) ∨
      ∃ missing, left.locate history requester path = .ok (.missing missing) ∧
        ((∃ otherMissing, right.locate otherHistory (rename requester) path
            = .ok (.missing otherMissing)) ∨
          ∃ fault, right.locate otherHistory (rename requester) path = .error fault)
  uri : ∀ source other, Twins source other → other.uri = rename source.uri
  read : ∀ source other, Twins source other → ∀ history otherHistory,
    left.read history source = right.read otherHistory other
  known : ∀ source other, Twins source other → ∀ history module,
    left.load configuration history source = .ok module → module.IsKnown Known
  undisturbed : left.meanwhile = World.undisturbed ∧ right.meanwhile = World.undisturbed

structure Pending.RenamedTo (left right : Pending) : Prop where
  uri : right.uri = rename left.uri
  importer : right.importer = left.importer.renamed rename
  request : right.request = left.request.renamed rename
  source : Option.Rel Twins left.source right.source
  known : Known left.importer.uri left.request.path

structure Crawl.RenamedTo (left right : Crawl) : Prop where
  result : right.result = left.result.renamed rename
  queue : List.Forall₂ (Pending.RenamedTo rename Known Twins) left.queue right.queue
  cache : right.cache = left.cache.renamed rename
  known : ∀ entry ∈ left.cache.entries, entry.2.module.IsKnown Known
  running : left.failure = none ∧ right.failure = none

/-- Two crawls side by side: at the same place, or both over with a fault. -/
inductive Crawl.Accompanies : Crawl → Crawl → Prop
  | same {left right : Crawl} (renamed : Crawl.RenamedTo rename Known Twins left right) :
      Accompanies left right
  | failed {left right : Crawl} (leftFailed : left.failure.isSome)
      (rightFailed : right.failure.isSome) : Accompanies left right

end

variable {rename : String → String} {Known : String → ImportPath → Prop}
variable {Twins : ModuleSource → ModuleSource → Prop}
variable {configuration : Configuration} {left right : World}
variable (worlds : World.RenamedTo rename Known Twins configuration left right)

namespace World.RenamedTo

include worlds

theorem source (history otherHistory : History) {importer : Module} {request : ImportRequest}
    (known : Known importer.uri request.path) :
    (∃ source other, left.source history importer request = .ok source ∧
        right.source otherHistory (importer.renamed rename) (request.renamed rename) = .ok other ∧
        Twins source other) ∨
      ∃ fault otherFault, left.source history importer request = .error fault ∧
        right.source otherHistory (importer.renamed rename) (request.renamed rename)
          = .error otherFault := by
  have uri : (importer.renamed rename).uri = rename importer.uri := rfl
  have path : (request.renamed rename).path = request.path := rfl
  rw [World.source, World.source, uri, path]
  rcases worlds.locate history otherHistory _ _ known with
    ⟨source, other, found, otherFound, twins⟩ | ⟨_, missing, ⟨_, otherMissing⟩ | ⟨_, refused⟩⟩
  · rw [found, otherFound]
    exact .inl ⟨source, other, rfl, rfl, twins⟩
  · rw [missing, otherMissing]
    exact .inr ⟨_, _, rfl, rfl⟩
  · rw [missing, refused]
    exact .inr ⟨_, _, rfl, rfl⟩

theorem load (history otherHistory : History) {source other : ModuleSource}
    (twins : Twins source other) :
    (∃ module, left.load configuration history source = .ok module ∧
        right.load configuration otherHistory other = .ok (module.renamed rename) ∧
        module.IsKnown Known) ∨
      ∃ fault otherFault, left.load configuration history source = .error fault ∧
        right.load configuration otherHistory other = .error otherFault := by
  have known := worlds.known source other twins history
  have loaded : (right.load configuration otherHistory other).toOption =
      (left.load configuration history source).toOption.map (Module.renamed rename) := by
    rw [World.load, World.load, ← worlds.read source other twins history otherHistory,
      worlds.uri source other twins]
    cases left.read history source with
    | error fault => rfl
    | ok bytes => exact Module.ofBytes_renamed configuration source.uri bytes
  rcases eq_ok_or_error_of_toOption_eq loaded with ⟨module, read, otherRead⟩ | failed
  · exact .inl ⟨module, read, otherRead, known module read⟩
  · exact .inr failed

end World.RenamedTo

/-! ## Expanding -/

structure Expansion.RenamedTo (rename : String → String) (Known : String → ImportPath → Prop)
    (Twins : ModuleSource → ModuleSource → Prop) (uri : String) (left right : Expansion)
    (found otherFound : List Pending) : Prop where
  outcome : left.outcome = .ok found
  otherOutcome : right.outcome = .ok otherFound
  found : List.Forall₂ (Pending.RenamedTo rename Known Twins) found otherFound
  requests : right.requests = left.requests.map (ImportRequest.renamed rename)
  known : ∀ request ∈ left.requests, Known uri request.path

namespace Expansion

theorem RenamedTo.prepend {uri : String} {leftRest rightRest : Expansion}
    {found otherFound : List Pending}
    (renamed : RenamedTo rename Known Twins uri leftRest rightRest found otherFound)
    {request : ImportRequest} {pending other : Pending}
    (pendings : pending.RenamedTo rename Known Twins other) (known : Known uri request.path) :
    RenamedTo rename Known Twins uri (leftRest.prepend request pending)
      (rightRest.prepend (request.renamed rename) other) (pending :: found)
      (other :: otherFound) where
  outcome := by rw [prepend_outcome, renamed.outcome]; rfl
  otherOutcome := by rw [prepend_outcome, renamed.otherOutcome]; rfl
  found := .cons pendings renamed.found
  requests := by rw [prepend_requests, prepend_requests, renamed.requests, List.map_cons]
  known := List.forall_mem_cons.mpr ⟨known, renamed.known⟩

theorem prepend_outcome_eq_error {expansion : Expansion} {fault : Fault}
    (failed : expansion.outcome = .error fault) (request : ImportRequest) (pending : Pending) :
    (expansion.prepend request pending).outcome = .error fault := by
  rw [prepend_outcome, failed]
  rfl

include worlds in
theorem ofRequests_renamed (module : Module) {requests : List ImportRequest}
    (known : ∀ request ∈ requests, Known module.uri request.path)
    (history otherHistory : History) :
    (∃ found otherFound, RenamedTo rename Known Twins module.uri
        (ofRequests left module history requests)
        (ofRequests right (module.renamed rename) otherHistory
          (requests.map (ImportRequest.renamed rename))) found otherFound) ∨
      ∃ fault otherFault,
        (ofRequests left module history requests).outcome = .error fault ∧
        (ofRequests right (module.renamed rename) otherHistory
          (requests.map (ImportRequest.renamed rename))).outcome = .error otherFault := by
  induction requests generalizing history otherHistory with
  | nil =>
      exact .inl ⟨[], [], rfl, rfl, .nil, rfl, fun _ member => absurd member List.not_mem_nil⟩
  | cons request rest induction =>
      rcases List.forall_mem_cons.mp known with ⟨here, behind⟩
      have target : (request.renamed rename).target = request.target.map rename := rfl
      rw [List.map_cons, ofRequests, ofRequests, target]
      cases bound : request.target with
      | some uri =>
          rcases induction behind history otherHistory with
            ⟨found, otherFound, renamed⟩ | ⟨fault, otherFault, failed, otherFailed⟩
          · exact .inl ⟨_, _, renamed.prepend ⟨rfl, rfl, rfl, .none, here⟩ here⟩
          · exact .inr ⟨fault, otherFault, prepend_outcome_eq_error failed _ _,
              prepend_outcome_eq_error otherFailed _ _⟩
      | none =>
          rcases worlds.source history otherHistory here with
            ⟨source, other, located, otherLocated, twins⟩ |
            ⟨fault, otherFault, failed, otherFailed⟩
          · have uri := worlds.uri source other twins
            have bind : (request.renamed rename).bind other.uri =
                (request.bind source.uri).renamed rename := by rw [uri]; rfl
            rcases induction behind (history ++ [.lookup module.uri request.path])
                (otherHistory ++ [.lookup (module.renamed rename).uri
                  (request.renamed rename).path]) with
              ⟨found, otherFound, renamed⟩ | ⟨fault, otherFault, failed, otherFailed⟩
            · simp only [Option.map_none, located, otherLocated, bind]
              exact .inl ⟨_, _, renamed.prepend ⟨uri, rfl, rfl, .some twins, here⟩ here⟩
            · simp only [Option.map_none, located, otherLocated]
              exact .inr ⟨fault, otherFault, prepend_outcome_eq_error failed _ _,
                prepend_outcome_eq_error otherFailed _ _⟩
          · simp only [Option.map_none, failed, otherFailed]
            exact .inr ⟨fault, otherFault, rfl, rfl⟩

end Expansion

/-! ## Crawling -/

theorem Module.pending_renamed {module : Module} (known : module.IsKnown Known) :
    List.Forall₂ (Pending.RenamedTo rename Known Twins) module.pending
      (module.renamed rename).pending := by
  have requests : ∀ requests : List ImportRequest,
      (∀ request ∈ requests, Known module.uri request.path) →
      List.Forall₂ (Pending.RenamedTo rename Known Twins)
        (requests.filterMap fun request =>
          request.target.map fun target => ⟨target, module, request, none⟩)
        ((requests.map (ImportRequest.renamed rename)).filterMap fun request =>
          request.target.map fun target => ⟨target, module.renamed rename, request, none⟩) := by
    intro requests
    induction requests with
    | nil => exact fun _ => .nil
    | cons request rest induction =>
        intro known
        rcases List.forall_mem_cons.mp known with ⟨here, behind⟩
        have target : (request.renamed rename).target = request.target.map rename := rfl
        rw [List.map_cons, List.filterMap_cons, List.filterMap_cons, target]
        cases request.target with
        | none => exact induction behind
        | some uri => exact .cons ⟨rfl, rfl, rfl, .none, here⟩ (induction behind)
  exact requests module.table.imports known

namespace Crawl

variable {crawl other : Crawl}

theorem RenamedTo.withHistory (renamed : RenamedTo rename Known Twins crawl other)
    (history otherHistory : History) :
    RenamedTo rename Known Twins { crawl with history := history }
      { other with history := otherHistory } :=
  ⟨renamed.result, renamed.queue, renamed.cache, renamed.known, renamed.running⟩

theorem RenamedTo.withCache (renamed : RenamedTo rename Known Twins crawl other)
    {cache : ModuleCache} (known : ∀ entry ∈ cache.entries, entry.2.module.IsKnown Known) :
    RenamedTo rename Known Twins { crawl with cache := cache }
      { other with cache := cache.renamed rename } :=
  ⟨renamed.result, renamed.queue, rfl, known, renamed.running⟩

theorem RenamedTo.accept (injective : Function.Injective rename)
    (renamed : RenamedTo rename Known Twins crawl other) (record : ModuleRecord)
    {found otherFound : List Pending}
    (pendings : List.Forall₂ (Pending.RenamedTo rename Known Twins) found otherFound) :
    RenamedTo rename Known Twins (crawl.accept record found)
      (other.accept (record.renamed rename) otherFound) where
  result := by
    rw [Crawl.accept, Crawl.accept, renamed.result, CrawlResult.insert_renamed injective]
  queue := List.rel_append renamed.queue pendings
  cache := renamed.cache
  known := renamed.known
  running := renamed.running

theorem known_insertIfNew {cache : ModuleCache} {record : ModuleRecord}
    (known : ∀ entry ∈ cache.entries, entry.2.module.IsKnown Known)
    (here : record.module.IsKnown Known) :
    ∀ entry ∈ (cache.insertIfNew record).2.entries, entry.2.module.IsKnown Known := by
  rw [ModuleCache.insertIfNew]
  cases cache.get? record.uri with
  | some kept => exact known
  | none =>
      intro entry member
      rcases List.mem_append.mp member with member | member
      · exact known entry member
      · rw [List.mem_singleton.mp member]
        exact here

theorem isKnown_of_get? {cache : ModuleCache} {uri : String} {record : ModuleRecord}
    (known : ∀ entry ∈ cache.entries, entry.2.module.IsKnown Known)
    (kept : cache.get? uri = some record) : record.module.IsKnown Known :=
  known (uri, record) (ModuleCache.mem_entries_of_get? kept)

theorem RenamedTo.keep (injective : Function.Injective rename)
    (renamed : RenamedTo rename Known Twins crawl other) {module : Module}
    (known : module.IsKnown Known) {found otherFound : List Pending}
    (pendings : List.Forall₂ (Pending.RenamedTo rename Known Twins) found otherFound) :
    RenamedTo rename Known Twins (crawl.keep module found)
      (other.keep (module.renamed rename) otherFound) := by
  have record : other.cache.record (module.renamed rename) =
      ((crawl.cache.record module).1.renamed rename,
        (crawl.cache.record module).2.renamed rename) := by
    rw [renamed.cache]
    rfl
  have numbered : ∀ entry ∈ (crawl.cache.record module).2.entries,
      entry.2.module.IsKnown Known := renamed.known
  have uri : ((crawl.cache.record module).1.renamed rename).uri =
      rename (crawl.cache.record module).1.uri := rfl
  simp only [Crawl.keep, record, uri, ModuleCache.get?_renamed injective]
  cases found : (crawl.cache.record module).2.get? (crawl.cache.record module).1.uri with
  | some kept =>
      exact (renamed.withCache numbered).accept injective kept
        (Module.pending_renamed (isKnown_of_get? numbered found))
  | none =>
      simp only [Option.map_none, ModuleCache.insertIfNew_renamed injective]
      exact (renamed.withCache (known_insertIfNew numbered known)).accept injective
        (crawl.cache.record module).1 pendings

include worlds

theorem RenamedTo.expand (injective : Function.Injective rename)
    (renamed : RenamedTo rename Known Twins crawl other) {module : Module}
    (known : module.IsKnown Known) :
    Accompanies rename Known Twins (crawl.expand left module)
      (other.expand right (module.renamed rename)) := by
  rcases Expansion.ofRequests_renamed worlds module known crawl.history other.history with
    ⟨found, otherFound, expansions⟩ | ⟨fault, otherFault, failed, otherFailed⟩
  · have outcome : (Expansion.ofModule left module crawl.history).outcome = .ok found :=
      expansions.outcome
    have otherOutcome : (Expansion.ofModule right (module.renamed rename) other.history).outcome =
        .ok otherFound := expansions.otherOutcome
    have expanded : (Expansion.ofModule right (module.renamed rename) other.history).expanded
        (module.renamed rename) =
        ((Expansion.ofModule left module crawl.history).expanded module).renamed rename := by
      rw [Expansion.expanded, Expansion.expanded, Module.withImports, Module.withImports]
      exact congrArg (fun requests => { module.renamed rename with
        table := { (module.renamed rename).table with imports := requests } }) expansions.requests
    simp only [Crawl.expand, outcome, otherOutcome, expanded]
    have expandedKnown :
        ((Expansion.ofModule left module crawl.history).expanded module).IsKnown Known :=
      expansions.known
    exact .same ((renamed.withHistory _ _).keep injective expandedKnown expansions.found)
  · have outcome : (Expansion.ofModule left module crawl.history).outcome = .error fault := failed
    have otherOutcome : (Expansion.ofModule right (module.renamed rename) other.history).outcome =
        .error otherFault := otherFailed
    simp only [Crawl.expand, outcome, otherOutcome]
    exact .failed rfl rfl

theorem RenamedTo.load (injective : Function.Injective rename)
    (renamed : RenamedTo rename Known Twins crawl other) {source otherSource : ModuleSource}
    (twins : Twins source otherSource) :
    Accompanies rename Known Twins (crawl.load configuration left source)
      (other.load configuration right otherSource) := by
  simp only [Crawl.load, worlds.undisturbed.1, worlds.undisturbed.2, World.undisturbed]
  rcases worlds.load (crawl.history ++ [.load source.uri])
      (other.history ++ [.load otherSource.uri]) twins with
    ⟨module, loaded, otherLoaded, known⟩ | ⟨fault, otherFault, failed, otherFailed⟩
  · simp only [loaded, otherLoaded]
    exact (renamed.withHistory _ _).expand worlds injective known
  · simp only [failed, otherFailed]
    exact .failed rfl rfl

theorem RenamedTo.relocate (injective : Function.Injective rename)
    (renamed : RenamedTo rename Known Twins crawl other) {pending otherPending : Pending}
    (pendings : pending.RenamedTo rename Known Twins otherPending) :
    Accompanies rename Known Twins (crawl.relocate configuration left pending)
      (other.relocate configuration right otherPending) := by
  simp only [Crawl.relocate, pendings.importer, pendings.request]
  rcases worlds.source crawl.history other.history pendings.known with
    ⟨source, otherSource, located, otherLocated, twins⟩ | ⟨_, _, failed, otherFailed⟩
  · have same : otherSource.uri = otherPending.uri ↔ source.uri = pending.uri := by
      rw [worlds.uri source otherSource twins, pendings.uri]
      exact injective.eq_iff
    simp only [located, otherLocated, same]
    split
    · exact (renamed.withHistory _ _).load worlds injective twins
    · exact .failed rfl rfl
  · simp only [failed, otherFailed]
    exact .failed rfl rfl

theorem RenamedTo.visit (injective : Function.Injective rename)
    (renamed : RenamedTo rename Known Twins crawl other) {pending otherPending : Pending}
    (pendings : pending.RenamedTo rename Known Twins otherPending) :
    Accompanies rename Known Twins (crawl.visit configuration left pending)
      (other.visit configuration right otherPending) := by
  rw [Crawl.visit, Crawl.visit, pendings.uri, renamed.result, renamed.cache,
    CrawlResult.contains_renamed injective, ModuleCache.get?_renamed injective]
  split
  · exact .same renamed
  · cases kept : crawl.cache.get? pending.uri with
    | some record =>
        exact .same (renamed.accept injective record
          (Module.pending_renamed (isKnown_of_get? renamed.known kept)))
    | none =>
        have sources := pendings.source
        simp only [Option.map_none]
        cases held : pending.source with
        | some source =>
            rw [held] at sources
            cases otherHeld : otherPending.source with
            | none =>
                rw [otherHeld] at sources
                cases sources
            | some otherSource =>
                rw [otherHeld] at sources
                cases sources with
                | some twins => exact renamed.load worlds injective twins
        | none =>
            rw [held] at sources
            cases otherHeld : otherPending.source with
            | none => exact renamed.relocate worlds injective pendings
            | some otherSource =>
                rw [otherHeld] at sources
                cases sources

theorem Accompanies.step (injective : Function.Injective rename)
    (accompanies : Accompanies rename Known Twins crawl other) :
    Accompanies rename Known Twins (crawl.step configuration left)
      (other.step configuration right) := by
  cases accompanies with
  | same renamed =>
      have queues := renamed.queue
      rw [Crawl.step, Crawl.step, renamed.running.1, renamed.running.2]
      cases queue : crawl.queue with
      | nil =>
          rw [queue] at queues
          cases otherQueue : other.queue with
          | nil => exact .same renamed
          | cons pending rest =>
              rw [otherQueue] at queues
              cases queues
      | cons pending rest =>
          rw [queue] at queues
          cases otherQueue : other.queue with
          | nil =>
              rw [otherQueue] at queues
              cases queues
          | cons otherPending otherRest =>
              rw [otherQueue] at queues
              cases queues with
              | cons pendings rests =>
                  have popped : RenamedTo rename Known Twins
                      { crawl with queue := rest, failure := none }
                      { other with queue := otherRest, failure := none } :=
                    ⟨renamed.result, rests, renamed.cache, renamed.known, rfl, rfl⟩
                  exact popped.visit worlds injective pendings
  | failed leftFailed rightFailed =>
      rcases Option.isSome_iff_exists.mp leftFailed with ⟨fault, failure⟩
      rcases Option.isSome_iff_exists.mp rightFailed with ⟨otherFault, otherFailure⟩
      rw [Crawl.step, Crawl.step, failure, otherFailure]
      exact .failed leftFailed rightFailed

theorem Accompanies.run (injective : Function.Injective rename)
    (accompanies : Accompanies rename Known Twins crawl other) (count : Nat) :
    Accompanies rename Known Twins (crawl.run configuration left count)
      (other.run configuration right count) := by
  induction count generalizing crawl other with
  | zero => exact accompanies
  | succ count induction =>
      rw [Crawl.run, Crawl.run]
      exact induction (accompanies.step worlds injective)

omit worlds in
/-- Crawls side by side come to the same end: neither is over, both have failed, or they have the
same modules in the same order. -/
theorem Accompanies.outcome? (accompanies : Accompanies rename Known Twins crawl other) :
    other.outcome?.map Except.toOption =
      crawl.outcome?.map fun outcome => outcome.toOption.map (CrawlResult.renamed rename) := by
  cases accompanies with
  | same renamed =>
      have queues := renamed.queue
      rw [Crawl.outcome?, Crawl.outcome?, renamed.running.1, renamed.running.2, renamed.result]
      cases queue : crawl.queue with
      | nil =>
          rw [queue] at queues
          cases otherQueue : other.queue with
          | nil => rfl
          | cons pending rest =>
              rw [otherQueue] at queues
              cases queues
      | cons pending rest =>
          rw [queue] at queues
          cases otherQueue : other.queue with
          | nil =>
              rw [otherQueue] at queues
              cases queues
          | cons otherPending otherRest => rfl
  | failed leftFailed rightFailed =>
      rcases Option.isSome_iff_exists.mp leftFailed with ⟨fault, failure⟩
      rcases Option.isSome_iff_exists.mp rightFailed with ⟨otherFault, otherFailure⟩
      rw [Crawl.outcome?, Crawl.outcome?, failure, otherFailure]
      rfl

theorem start_accompanies (injective : Function.Injective rename) {cache : ModuleCache}
    (cached : ∀ entry ∈ cache.entries, entry.2.module.IsKnown Known) {root : ModuleRecord}
    (known : root.module.IsKnown Known) :
    Accompanies rename Known Twins (start left cache root)
      (start right (cache.renamed rename) (root.renamed rename)) := by
  rcases Expansion.ofRequests_renamed worlds root.module known [] [] with
    ⟨found, otherFound, expansions⟩ | ⟨fault, otherFault, failed, otherFailed⟩
  · have outcome : (Expansion.ofModule left root.module []).outcome = .ok found :=
      expansions.outcome
    have otherOutcome : (Expansion.ofModule right (root.renamed rename).module []).outcome =
        .ok otherFound := expansions.otherOutcome
    have expanded : expandedRoot right (root.renamed rename) =
        (expandedRoot left root).renamed rename := by
      have requests : (Expansion.ofModule right (root.renamed rename).module []).requests =
          (Expansion.ofModule left root.module []).requests.map (ImportRequest.renamed rename) :=
        expansions.requests
      rw [expandedRoot, expandedRoot, Expansion.expanded, Expansion.expanded, requests]
      rfl
    have expandedKnown : (expandedRoot left root).module.IsKnown Known := expansions.known
    simp only [start, outcome, otherOutcome, expanded, ModuleCache.insertIfNew_renamed injective]
    refine .same ⟨?_, expansions.found, rfl, known_insertIfNew cached expandedKnown, rfl, rfl⟩
    exact (CrawlResult.insert_renamed injective .empty _).symm
  · have outcome : (Expansion.ofModule left root.module []).outcome = .error fault := failed
    have otherOutcome : (Expansion.ofModule right (root.renamed rename).module []).outcome =
        .error otherFault := otherFailed
    simp only [start, outcome, otherOutcome]
    exact .failed rfl rfl

end Crawl

end ServiceModules
