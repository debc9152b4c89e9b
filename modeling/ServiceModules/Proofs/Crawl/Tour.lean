import ServiceModules.Proofs.Crawl.Coherence

/-!
Tours: crawls without a cache and without records. A tour takes the sources that wait one after the
other and reads every module that it has not reached. In surroundings that do not change, a crawl
with a coherent cache goes step by step the way of the tour from its root, whatever the cache holds.
-/

namespace ServiceModules

structure Tour where
  /-- The modules that were reached, bound to what they import. -/
  reached : List Module
  waiting : List ModuleSource
  failure : Option Fault

namespace Tour

def uris (tour : Tour) : List String := tour.reached.map Module.uri

def fail (tour : Tour) (fault : Fault) : Tour := { tour with failure := some fault }

def reach (surroundings : Surroundings) (tour : Tour) (module : Module) : Tour :=
  match surroundings.sources module module.table.imports with
  | .error fault => tour.fail fault
  | .ok found =>
    { tour with
      reached := tour.reached ++ [module.boundTo found]
      waiting := tour.waiting ++ found }

def visit (surroundings : Surroundings) (configuration : Configuration) (tour : Tour)
    (source : ModuleSource) : Tour :=
  if source.uri ∈ tour.uris then tour
  else
    match surroundings.load configuration source with
    | .error fault => tour.fail fault
    | .ok module => tour.reach surroundings module

def step (surroundings : Surroundings) (configuration : Configuration) (tour : Tour) : Tour :=
  match tour.failure, tour.waiting with
  | none, source :: rest => { tour with waiting := rest }.visit surroundings configuration source
  | _, _ => tour

def run (surroundings : Surroundings) (configuration : Configuration) : Nat → Tour → Tour
  | 0, tour => tour
  | count + 1, tour => run surroundings configuration count (tour.step surroundings configuration)

def start (surroundings : Surroundings) (root : Module) : Tour :=
  reach surroundings ⟨[], [], none⟩ root

def outcome? (tour : Tour) : Option (Except Fault (List Module)) :=
  match tour.failure, tour.waiting with
  | some fault, _ => some (.error fault)
  | none, [] => some (.ok tour.reached)
  | none, _ :: _ => none

variable {surroundings : Surroundings} {configuration : Configuration} {tour : Tour}

/-! The ends of a visit, as of a crawl. -/

theorem visit_of_known {source : ModuleSource} (known : source.uri ∈ tour.uris) :
    tour.visit surroundings configuration source = tour := by
  rw [visit, if_pos known]

theorem visit_of_unreadable {source : ModuleSource} {fault : Fault}
    (new : source.uri ∉ tour.uris)
    (failed : surroundings.load configuration source = .error fault) :
    tour.visit surroundings configuration source = tour.fail fault := by
  rw [visit, if_neg new, failed]

theorem visit_of_readable {source : ModuleSource} {module : Module}
    (new : source.uri ∉ tour.uris)
    (loaded : surroundings.load configuration source = .ok module) :
    tour.visit surroundings configuration source = tour.reach surroundings module := by
  rw [visit, if_neg new, loaded]

theorem reach_of_unlocated {module : Module} {fault : Fault}
    (failed : surroundings.sources module module.table.imports = .error fault) :
    tour.reach surroundings module = tour.fail fault := by
  rw [reach, failed]

theorem reach_of_located {module : Module} {found : List ModuleSource}
    (located : surroundings.sources module module.table.imports = .ok found) :
    tour.reach surroundings module =
      { tour with
        reached := tour.reached ++ [module.boundTo found]
        waiting := tour.waiting ++ found } := by
  rw [reach, located]

end Tour

/-! ## A crawl on the way of a tour -/

namespace Crawl

/-- A crawl and a tour that have reached the same modules and have the same ones before them. What
the cache holds for a module that was not reached is current. -/
structure Abreast (surroundings : Surroundings) (configuration : Configuration) (crawl : Crawl)
    (tour : Tour) : Prop where
  reached : crawl.result.modules = tour.reached.map fun module => (module.uri, module)
  waiting : crawl.queue.map Pending.uri = tour.waiting.map ModuleSource.uri
  leads : ∀ pending ∈ crawl.queue, surroundings.Leads pending
  serves : ∀ source ∈ tour.waiting, surroundings.Serves source
  current : ∀ uri record, (uri, record) ∈ crawl.cache.entries →
    crawl.result.contains uri = false →
    record.uri = uri ∧ surroundings.IsCurrent configuration record.module

/-- The crawl and the tour have failed alike, or they are abreast. -/
def Follows (surroundings : Surroundings) (configuration : Configuration) (crawl : Crawl)
    (tour : Tour) : Prop :=
  crawl.failure = tour.failure ∧
    (crawl.failure = none → Abreast surroundings configuration crawl tour)

variable {surroundings : Surroundings} {configuration : Configuration} {crawl : Crawl}
  {tour : Tour}

theorem Abreast.uris_eq (abreast : Abreast surroundings configuration crawl tour) :
    crawl.result.uris = tour.uris := by
  rw [← CrawlResult.modules_map_fst, abreast.reached, List.map_map]
  rfl

theorem Abreast.contains_iff (abreast : Abreast surroundings configuration crawl tour)
    {uri : String} : crawl.result.contains uri = true ↔ uri ∈ tour.uris := by
  rw [CrawlResult.contains_iff, abreast.uris_eq]

theorem Abreast.not_mem_uris (abreast : Abreast surroundings configuration crawl tour)
    {uri : String} (new : crawl.result.contains uri = false) : uri ∉ tour.uris := by
  intro member
  rw [abreast.contains_iff.mpr member] at new
  cases new

theorem Abreast.accept (abreast : Abreast surroundings configuration crawl tour)
    {record : ModuleRecord} {found : List Pending} {sources : List ModuleSource}
    (new : crawl.result.contains record.uri = false)
    (same : found.map Pending.uri = sources.map ModuleSource.uri)
    (leads : ∀ pending ∈ found, surroundings.Leads pending)
    (serves : ∀ source ∈ sources, surroundings.Serves source) :
    Abreast surroundings configuration (crawl.accept record found)
      { tour with
        reached := tour.reached ++ [record.module]
        waiting := tour.waiting ++ sources } where
  reached := by
    have inserted : (crawl.accept record found).result.modules =
        crawl.result.modules ++ [(record.uri, record.module)] := CrawlResult.modules_insert new
    rw [inserted, abreast.reached, List.map_append]
    rfl
  waiting := by
    have queued : (crawl.accept record found).queue = crawl.queue ++ found := rfl
    rw [queued, List.map_append, List.map_append, abreast.waiting, same]
  leads := by
    intro pending member
    rcases List.mem_append.mp member with member | member
    · exact abreast.leads pending member
    · exact leads pending member
  serves := by
    intro source member
    rcases List.mem_append.mp member with member | member
    · exact abreast.serves source member
    · exact serves source member
  current := by
    intro uri entry member missing
    have inserted : (crawl.accept record found).result.uris = crawl.result.uris ++ [record.uri] :=
      CrawlResult.uris_insert new
    apply abreast.current uri entry member
    rw [Bool.eq_false_iff] at missing ⊢
    intro contained
    apply missing
    rw [CrawlResult.contains_iff, inserted]
    exact List.mem_append_left _ (CrawlResult.contains_iff.mp contained)

theorem Abreast.keep (abreast : Abreast surroundings configuration crawl tour)
    (history : History) (next : Nat) {record : ModuleRecord}
    (current : surroundings.IsCurrent configuration record.module) :
    Abreast surroundings configuration
      { crawl with
        history := history
        cache := ⟨crawl.cache.entries ++ [(record.uri, record)], next⟩ } tour where
  reached := abreast.reached
  waiting := abreast.waiting
  leads := abreast.leads
  serves := abreast.serves
  current := by
    intro uri entry member missing
    rcases List.mem_append.mp member with member | member
    · exact abreast.current uri entry member missing
    · cases List.mem_singleton.mp member
      exact ⟨rfl, current⟩

theorem follows_fail {history : History} (fault : Fault) :
    Follows surroundings configuration (fail { crawl with history := history } fault)
      (tour.fail fault) := by
  refine ⟨rfl, ?_⟩
  intro unfailed
  cases unfailed

theorem follows_of_abreast (crawlOn : crawl.failure = none) (tourOn : tour.failure = none)
    (abreast : Abreast surroundings configuration crawl tour) :
    Follows surroundings configuration crawl tour :=
  ⟨crawlOn.trans tourOn.symm, fun _ => abreast⟩

theorem follows_cached {record : ModuleRecord} {source : ModuleSource}
    (abreast : Abreast surroundings configuration crawl tour)
    (crawlOn : crawl.failure = none) (tourOn : tour.failure = none)
    (serves : surroundings.Serves source)
    (new : crawl.result.contains source.uri = false)
    (hit : crawl.cache.get? source.uri = some record) :
    Follows surroundings configuration (crawl.accept record record.module.pending)
      (tour.visit surroundings configuration source) := by
  rcases abreast.current source.uri record (ModuleCache.mem_entries_of_get? hit) new with
    ⟨ownUri, current⟩
  rcases current source serves ownUri.symm with ⟨loaded, settles⟩
  rcases Surroundings.exists_sources_of_settles settles with ⟨found, finds, bounds, uris⟩
  have located : surroundings.sources record.module.unbound record.module.unbound.table.imports =
      .ok found := Surroundings.sources_eq_ok_iff.mpr finds
  have rebound : record.module.unbound.boundTo found = record.module := by
    rw [Module.boundTo, Module.unbound_imports, bounds, Module.unbound,
      Module.withImports_withImports, Module.withImports_self]
  rw [Tour.visit_of_readable (abreast.not_mem_uris new) loaded, Tour.reach_of_located located,
    rebound]
  refine follows_of_abreast crawlOn tourOn (abreast.accept (by rw [ownUri]; exact new) ?_ ?_ ?_)
  · rw [Module.pending_map_uri, Module.dependencies, SymbolTable.dependencies, uris]
  · intro pending member
    exact Surroundings.leads_of_mem_pending
      (fun request requestMember =>
        Surroundings.confirms_of_settles (settles request requestMember)) member
  · intro other member
    exact Surroundings.serves_of_mem_sources finds other member

theorem follows_unlocated {source : ModuleSource} {module : Module} {before after : History}
    {fault : Fault} (known : source.uri ∉ tour.uris)
    (read : surroundings.load configuration source = .ok module)
    (failed : (Expansion.ofModule surroundings.world module before).outcome = .error fault) :
    Follows surroundings configuration (fail { crawl with history := after } fault)
      (tour.visit surroundings configuration source) := by
  have confirms : surroundings.Confirms module :=
    Surroundings.confirms_of_unbound_eq_self (Surroundings.unbound_of_load_eq_ok read)
  rw [Tour.visit_of_readable known read]
  cases located : surroundings.sources module module.table.imports with
  | error otherFault =>
      rw [Surroundings.ofModule_eq_error confirms located] at failed
      cases failed
      rw [Tour.reach_of_unlocated located]
      exact follows_fail fault
  | ok found =>
      rcases Surroundings.ofModule_eq_ok confirms located with ⟨pendings, outcome, _⟩
      rw [outcome] at failed
      cases failed

theorem follows_taken {source : ModuleSource} {module : Module} {before after : History}
    {found : List Pending} (abreast : Abreast surroundings configuration crawl tour)
    (crawlOn : crawl.failure = none) (tourOn : tour.failure = none)
    (serves : surroundings.Serves source) (new : crawl.result.contains source.uri = false)
    (read : surroundings.load configuration source = .ok module)
    (succeeded : (Expansion.ofModule surroundings.world module before).outcome = .ok found)
    (next : Nat) :
    Follows surroundings configuration
      (accept
        { crawl with
          history := after
          cache :=
            { entries := crawl.cache.entries ++
                [(module.uri, recordOf surroundings.world crawl before module)]
              next := next } }
        (recordOf surroundings.world crawl before module) found)
      (tour.visit surroundings configuration source) := by
  have confirms : surroundings.Confirms module :=
    Surroundings.confirms_of_unbound_eq_self (Surroundings.unbound_of_load_eq_ok read)
  have ownUri : module.uri = source.uri := Surroundings.uri_of_load_eq_ok read
  have recordUri : (recordOf surroundings.world crawl before module).uri = source.uri := ownUri
  rw [Tour.visit_of_readable (abreast.not_mem_uris new) read]
  cases located : surroundings.sources module module.table.imports with
  | error fault =>
      rw [Surroundings.ofModule_eq_error confirms located] at succeeded
      cases succeeded
  | ok sources =>
      rcases @Surroundings.ofModule_eq_ok surroundings module before sources confirms located with
        ⟨pendings, outcome, bounds, uris, leads⟩
      rw [outcome] at succeeded
      cases succeeded
      -- What is put into the cache is current, so that later visits may take it from there.
      have current : surroundings.IsCurrent configuration
          (recordOf surroundings.world crawl before module).module :=
        Surroundings.isCurrent_expanded (Surroundings.vouches_of_load_eq_ok serves read) confirms
          outcome
      have kept := abreast.keep after next current
      rw [Tour.reach_of_located located, ← bounds]
      refine follows_of_abreast crawlOn tourOn (kept.accept ?_ uris leads
        (Surroundings.serves_of_mem_sources (Surroundings.sources_eq_ok_iff.mp located)))
      rw [recordUri]
      exact new

theorem follows_visit {pending : Pending} {source : ModuleSource}
    (abreast : Abreast surroundings configuration crawl tour)
    (crawlOn : crawl.failure = none) (tourOn : tour.failure = none)
    (leads : surroundings.Leads pending) (serves : surroundings.Serves source)
    (same : pending.uri = source.uri) :
    Follows surroundings configuration (crawl.visit configuration surroundings.world pending)
      (tour.visit surroundings configuration source) := by
  have sameLoad : ∀ {history : History} {other : ModuleSource},
      Sources surroundings.world crawl.history pending history other →
      surroundings.load configuration source = surroundings.load configuration other := by
    intro history other sources
    have otherUri : other.uri = pending.uri := sources.uri_eq leads.hasOwnSource
    exact Surroundings.load_eq_of_uri_eq serves (leads.serves_of_sources sources)
      (same.symm.trans otherUri.symm)
  have visits := @visits_visit configuration surroundings.world crawl pending
    surroundings.world_isUndisturbed leads.hasOwnSource
  generalize crawl.visit configuration surroundings.world pending = later at visits ⊢
  cases visits with
  | known contained =>
      rw [same] at contained
      rw [Tour.visit_of_known (abreast.contains_iff.mp contained)]
      exact follows_of_abreast crawlOn tourOn abreast
  | cached new hit =>
      rw [same] at new hit
      exact follows_cached abreast crawlOn tourOn serves new hit
  | broken new _ breaks =>
      rw [same] at new
      have unknown := abreast.not_mem_uris new
      cases breaks with
      | lost _ loses => exact absurd loses leads.not_loses
      | unreadable sources failed =>
          rw [Tour.visit_of_unreadable unknown ((sameLoad sources).trans failed)]
          exact follows_fail _
      | unlocated sources loaded failed =>
          exact follows_unlocated unknown ((sameLoad sources).trans loaded) failed
  | taken new miss sources loaded succeeded =>
      rw [same] at new
      exact follows_taken abreast crawlOn tourOn serves new ((sameLoad sources).trans loaded)
        succeeded _

theorem Abreast.pop (abreast : Abreast surroundings configuration crawl tour) {pending : Pending}
    {rest : List Pending} (queue : crawl.queue = pending :: rest) :
    ∃ source sources, tour.waiting = source :: sources ∧ pending.uri = source.uri ∧
      surroundings.Leads pending ∧ surroundings.Serves source ∧
      Abreast surroundings configuration { crawl with queue := rest }
        { tour with waiting := sources } := by
  have waiting := abreast.waiting
  rw [queue, List.map_cons] at waiting
  rcases List.map_eq_cons_iff.mp waiting.symm with ⟨source, sources, tourQueue, same, restSame⟩
  have leads := abreast.leads
  have serves := abreast.serves
  rw [queue] at leads
  rw [tourQueue] at serves
  have popped : Abreast surroundings configuration { crawl with queue := rest }
      { tour with waiting := sources } :=
    { reached := abreast.reached
      waiting := restSame.symm
      leads := fun next member => leads next (List.mem_cons_of_mem _ member)
      serves := fun next member => serves next (List.mem_cons_of_mem _ member)
      current := abreast.current }
  exact ⟨source, sources, tourQueue, same.symm, leads pending (List.mem_cons_self ..),
    serves source (List.mem_cons_self ..), popped⟩

theorem Abreast.waiting_eq_nil (abreast : Abreast surroundings configuration crawl tour)
    (queue : crawl.queue = []) : tour.waiting = [] := by
  have waiting := abreast.waiting
  rw [queue] at waiting
  exact List.map_eq_nil_iff.mp waiting.symm

/-- The invariant of the two runs: one step of each keeps them together. -/
theorem Follows.step (follows : Follows surroundings configuration crawl tour) :
    Follows surroundings configuration (crawl.step configuration surroundings.world)
      (tour.step surroundings configuration) := by
  rcases follows with ⟨sameFailure, together⟩
  cases crawlOn : crawl.failure with
  | some fault =>
      have tourFailed : tour.failure = some fault := by rw [← sameFailure, crawlOn]
      have crawlStays : crawl.step configuration surroundings.world = crawl :=
        step_of_outcome? (outcome?_of_failure crawlOn)
      have tourStays : tour.step surroundings configuration = tour := by
        rw [Tour.step, tourFailed]
      rw [crawlStays, tourStays]
      exact ⟨sameFailure, together⟩
  | none =>
      have tourOn : tour.failure = none := by rw [← sameFailure, crawlOn]
      have abreast := together crawlOn
      cases queue : crawl.queue with
      | nil =>
          have nothing := abreast.waiting_eq_nil queue
          have crawlStays : crawl.step configuration surroundings.world = crawl :=
            step_of_outcome? (outcome?_of_queue_eq_nil crawlOn queue)
          have tourStays : tour.step surroundings configuration = tour := by
            rw [Tour.step, tourOn, nothing]
          rw [crawlStays, tourStays]
          exact ⟨sameFailure, together⟩
      | cons pending rest =>
          -- Both take the first that waits, which is the same module.
          rcases abreast.pop queue with ⟨source, sources, tourQueue, same, leads, serves, popped⟩
          have tourMoves : tour.step surroundings configuration =
              Tour.visit surroundings configuration { tour with waiting := sources } source := by
            rw [Tour.step, tourOn, tourQueue]
          rw [step_of_queue_eq_cons crawlOn queue, tourMoves]
          exact follows_visit popped crawlOn tourOn leads serves same

theorem Follows.run (follows : Follows surroundings configuration crawl tour) (count : Nat) :
    Follows surroundings configuration (crawl.run configuration surroundings.world count)
      (tour.run surroundings configuration count) := by
  induction count generalizing crawl tour with
  | zero => exact follows
  | succ count induction => exact induction follows.step

theorem follows_start {cache : ModuleCache} {root : ModuleRecord}
    (coherent : surroundings.Coherent configuration cache)
    (confirms : surroundings.Confirms root.module) :
    Follows surroundings configuration (start surroundings.world cache root)
      (Tour.start surroundings root.module) := by
  rw [start, Tour.start]
  cases located : surroundings.sources root.module root.module.table.imports with
  | error fault =>
      simp only [Surroundings.ofModule_eq_error confirms located]
      rw [Tour.reach_of_unlocated located]
      refine ⟨rfl, fun unfailed => ?_⟩
      cases unfailed
  | ok found =>
      rcases @Surroundings.ofModule_eq_ok surroundings root.module [] found confirms located with
        ⟨pending, outcome, bounds, uris, leads⟩
      have expanded : (expandedRoot surroundings.world root).module = root.module.boundTo found :=
        bounds
      simp only [outcome]
      rw [Tour.reach_of_located located]
      refine follows_of_abreast rfl rfl
        { reached := ?_
          waiting := uris
          leads := leads
          serves :=
            Surroundings.serves_of_mem_sources (Surroundings.sources_eq_ok_iff.mp located)
          current := ?_ }
      · rw [← expanded]
        rfl
      · intro uri record member missing
        rcases ModuleCache.entries_insertIfNew cache (expandedRoot surroundings.world root) with
          same | ⟨_, inserted⟩
        · rw [same] at member
          exact coherent uri record member
        · -- The root is in the result, so nothing is asked of what the cache holds for it.
          rw [inserted] at member
          rcases List.mem_append.mp member with member | member
          · exact coherent uri record member
          · cases List.mem_singleton.mp member
            simp [CrawlResult.contains, CrawlResult.get?, CrawlResult.insert,
              CrawlResult.insertInto, CrawlResult.empty] at missing

/-- What a crawl that is over has come to, without the numbers of its records. -/
def verdict? (crawl : Crawl) : Option (Except Fault (List (String × Module))) :=
  crawl.outcome?.map fun outcome => outcome.map CrawlResult.modules

/-- A crawl that follows a tour comes to what the tour comes to, at the same step. -/
theorem Follows.verdict?_eq (follows : Follows surroundings configuration crawl tour) :
    crawl.verdict? = tour.outcome?.map fun outcome =>
      outcome.map fun reached => reached.map fun module => (module.uri, module) := by
  rcases follows with ⟨sameFailure, together⟩
  rw [verdict?, outcome?, Tour.outcome?, ← sameFailure]
  cases crawlOn : crawl.failure with
  | some fault => rfl
  | none =>
      have abreast := together crawlOn
      cases queue : crawl.queue with
      | nil =>
          rw [abreast.waiting_eq_nil queue]
          simp [Except.map, abreast.reached]
      | cons pending rest =>
          rcases abreast.pop queue with ⟨source, sources, tourQueue, _⟩
          rw [tourQueue]
          rfl

end Crawl

end ServiceModules
