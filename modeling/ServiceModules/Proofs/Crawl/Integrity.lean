import Mathlib.Data.List.Nodup
import ServiceModules.Proofs.Crawl.Visit

/-!
What holds of a crawl in any world, also in one that answers every question differently each time,
as long as nobody else writes into the cache. What the result and the cache hold stays there, every
record stands under its own identifier, and as long as the crawl has not failed, what a record is
bound to is in the result or waits in the queue.
-/

namespace ServiceModules

namespace ModuleCache

/-- Every record is stored once and under its own identifier, and all its requests are resolved. -/
structure IsClean (cache : ModuleCache) : Prop where
  distinct : cache.uris.Nodup
  named : ∀ uri record, (uri, record) ∈ cache.entries → record.uri = uri
  resolved : ∀ uri record, (uri, record) ∈ cache.entries →
    record.module.table.isFullyResolved = true

theorem isClean_empty (next : Nat) : IsClean ⟨[], next⟩ where
  distinct := List.nodup_nil
  named := by simp
  resolved := by simp

theorem IsClean.insert {cache : ModuleCache} (clean : cache.IsClean) {record : ModuleRecord}
    (miss : cache.get? record.uri = none)
    (resolved : record.module.table.isFullyResolved = true) (next : Nat) :
    IsClean ⟨cache.entries ++ [(record.uri, record)], next⟩ where
  distinct := by
    rw [uris, List.map_append]
    exact List.Nodup.append clean.distinct (List.nodup_singleton _)
      (List.disjoint_singleton.mpr (get?_eq_none_iff.mp miss))
  named := by
    intro uri entry member
    rcases List.mem_append.mp member with member | member
    · exact clean.named uri entry member
    · cases List.mem_singleton.mp member
      rfl
  resolved := by
    intro uri entry member
    rcases List.mem_append.mp member with member | member
    · exact clean.resolved uri entry member
    · cases List.mem_singleton.mp member
      exact resolved

theorem IsClean.insertIfNew {cache : ModuleCache} (clean : cache.IsClean) {record : ModuleRecord}
    (resolved : record.module.table.isFullyResolved = true) :
    (cache.insertIfNew record).2.IsClean := by
  cases found : cache.get? record.uri with
  | some kept =>
      rw [insertIfNew_of_get? found]
      exact clean
  | none =>
      rw [insertIfNew_of_missing found]
      exact clean.insert found resolved cache.next

end ModuleCache

namespace Crawl

/-- A crawl that can go on: everything in its result is fully resolved, and bound to what is in the
result or in the queue. -/
structure Proceeds (crawl : Crawl) : Prop where
  sourced : ∀ pending ∈ crawl.queue, pending.HasOwnSource
  resolved : ∀ uri record, (uri, record) ∈ crawl.result.entries →
    record.module.table.isFullyResolved = true
  closed : ∀ uri record, (uri, record) ∈ crawl.result.entries →
    ∀ target ∈ record.module.dependencies,
      target ∈ crawl.result.uris ∨ target ∈ crawl.queue.map Pending.uri

structure Integrity (crawl : Crawl) : Prop where
  clean : crawl.cache.IsClean
  distinct : crawl.result.uris.Nodup
  named : ∀ uri record, (uri, record) ∈ crawl.result.entries → record.uri = uri
  proceeds : crawl.failure = none → crawl.Proceeds

/-! ## What a step can do -/

structure Takes (pending : Pending) (record : ModuleRecord) (found : List Pending) : Prop where
  named : record.uri = pending.uri
  resolved : record.module.table.isFullyResolved = true
  leads : found.map Pending.uri = record.module.dependencies
  sourced : ∀ next ∈ found, next.HasOwnSource

/-- What one step makes of a crawl, whatever the world answers. -/
inductive Moves (crawl : Crawl) : Crawl → Prop
  | finished : Moves crawl crawl
  | known {pending : Pending} {rest : List Pending} (running : crawl.failure = none)
      (queue : crawl.queue = pending :: rest)
      (contained : crawl.result.contains pending.uri = true) :
      Moves crawl { crawl with queue := rest }
  | broken {rest : List Pending} (history : History) (fault : Fault) :
      Moves crawl (fail { crawl with queue := rest, history := history } fault)
  | cached {pending : Pending} {rest : List Pending} {record : ModuleRecord}
      (running : crawl.failure = none) (queue : crawl.queue = pending :: rest)
      (new : crawl.result.contains record.uri = false)
      (hit : crawl.cache.get? record.uri = some record)
      (takes : Takes pending record record.module.pending) :
      Moves crawl (accept { crawl with queue := rest } record record.module.pending)
  | taken {pending : Pending} {rest found : List Pending} {record : ModuleRecord}
      (running : crawl.failure = none) (queue : crawl.queue = pending :: rest)
      (new : crawl.result.contains record.uri = false)
      (miss : crawl.cache.get? record.uri = none) (takes : Takes pending record found)
      (number : record.number = crawl.cache.next) (read : record.module.IsRead)
      (history : History) :
      Moves crawl
        (accept
          { crawl with
            queue := rest
            history := history
            cache := ⟨crawl.cache.entries ++ [(record.uri, record)], crawl.cache.next + 1⟩ }
          record found)

variable {configuration : Configuration} {world : World} {crawl later : Crawl}

theorem isRead_recordOf {history : History} {source : ModuleSource} {module : Module}
    (loaded : world.load configuration history source = .ok module) :
    (recordOf world crawl history module).module.IsRead := by
  rw [World.load] at loaded
  split at loaded
  · cases loaded
  · exact Module.isRead_of_unbound_eq (Expansion.expanded_unbound world module history)
      (Module.isRead_of_ofBytes_eq_ok loaded)

theorem Integrity.moves (integrity : Integrity crawl) (calm : world.IsUndisturbed) :
    Moves crawl (crawl.step configuration world) := by
  rw [step]
  split
  · next pending rest running queue =>
    have sourced : pending.HasOwnSource :=
      (integrity.proceeds running).sourced pending (queue ▸ List.mem_cons_self ..)
    have visits := @visits_visit configuration world { crawl with queue := rest } pending calm
      sourced
    generalize visit configuration world { crawl with queue := rest } pending = later
      at visits ⊢
    cases visits with
    | known contained => exact .known running queue contained
    | @cached record new hit =>
        have member := ModuleCache.mem_entries_of_get? hit
        have named := integrity.clean.named pending.uri record member
        rw [← named] at new hit
        exact .cached running queue new hit
          { named := named
            resolved := integrity.clean.resolved pending.uri record member
            leads := Module.pending_map_uri record.module
            sourced := fun next nextMember => Module.hasOwnSource_of_mem_pending nextMember }
    | broken _ _ _ => exact .broken _ _
    | @taken history source module found new miss sources loaded succeeded =>
        have named : module.uri = pending.uri :=
          (World.uri_of_load_eq_ok loaded).trans (sources.uri_eq sourced)
        have takes : Takes pending
            (recordOf world { crawl with queue := rest } (loading history source) module) found :=
          { named := named
            resolved := Expansion.isFullyResolved_of_ofModule_eq_ok succeeded
            leads := Expansion.map_uri_of_ofModule_eq_ok succeeded
            sourced := (Expansion.succeeds_of_ofModule_eq_ok succeeded).hasOwnSource }
        rw [← takes.named] at new miss
        exact .taken running queue new miss takes rfl (isRead_recordOf loaded) _
  · exact .finished

theorem Moves.mem_result (moves : Moves crawl later) {entry : String × ModuleRecord}
    (member : entry ∈ crawl.result.entries) : entry ∈ later.result.entries := by
  cases moves with
  | finished | known | broken => exact member
  | cached _ _ new =>
      rw [accept, CrawlResult.entries_insert new]
      exact List.mem_append_left _ member
  | taken _ _ new =>
      rw [accept, CrawlResult.entries_insert new]
      exact List.mem_append_left _ member

theorem Moves.get?_cache (moves : Moves crawl later) {uri : String} {record : ModuleRecord}
    (found : crawl.cache.get? uri = some record) : later.cache.get? uri = some record := by
  cases moves with
  | finished | known | broken | cached => exact found
  | @taken _ _ _ fresh =>
      have kept : ModuleCache.get? ⟨crawl.cache.entries ++ [(fresh.uri, fresh)],
          crawl.cache.next + 1⟩ uri = some record := by
        rw [ModuleCache.get?, List.lookup_append, ← ModuleCache.get?, found]
        rfl
      exact kept

/-! ## The invariant -/

theorem Proceeds.accept (proceeds : Proceeds crawl) {pending : Pending}
    {rest found : List Pending} (queue : crawl.queue = pending :: rest) {record : ModuleRecord}
    (cache : ModuleCache) (history : History)
    (new : crawl.result.contains record.uri = false) (takes : Takes pending record found) :
    Proceeds
      (accept { crawl with queue := rest, cache := cache, history := history } record found) := by
  have entries : (crawl.result.insert record).entries =
      crawl.result.entries ++ [(record.uri, record)] := CrawlResult.entries_insert new
  have uris : (crawl.result.insert record).uris = crawl.result.uris ++ [record.uri] :=
    CrawlResult.uris_insert new
  -- The pending module goes from the queue into the result; nothing else that was reached
  -- is lost.
  have old : ∀ target, target ∈ crawl.result.uris ∨ target ∈ crawl.queue.map Pending.uri →
      target ∈ crawl.result.uris ++ [record.uri] ∨
        target ∈ (rest ++ found).map Pending.uri := by
    intro target reached
    rw [queue, List.map_cons] at reached
    rcases reached with reached | waiting
    · exact .inl (List.mem_append_left _ reached)
    · rcases List.mem_cons.mp waiting with taken | waiting
      · rw [taken, ← takes.named]
        exact .inl (List.mem_append_right _ (List.mem_cons_self ..))
      · rw [List.map_append]
        exact .inr (List.mem_append_left _ waiting)
  refine { sourced := ?_, resolved := ?_, closed := ?_ }
  · intro next member
    rcases List.mem_append.mp member with member | member
    · exact proceeds.sourced next (queue ▸ List.mem_cons_of_mem _ member)
    · exact takes.sourced next member
  · intro uri entry member
    rw [Crawl.accept, entries] at member
    rcases List.mem_append.mp member with member | member
    · exact proceeds.resolved uri entry member
    · cases List.mem_singleton.mp member
      exact takes.resolved
  · intro uri entry member target bound
    rw [Crawl.accept, entries] at member
    show target ∈ (crawl.result.insert record).uris ∨ target ∈ (rest ++ found).map Pending.uri
    rw [uris]
    rcases List.mem_append.mp member with member | member
    · exact old target (proceeds.closed uri entry member target bound)
    · cases List.mem_singleton.mp member
      rw [← takes.leads] at bound
      rw [List.map_append]
      exact .inr (List.mem_append_right _ bound)

theorem Integrity.accept (integrity : Integrity crawl) (running : crawl.failure = none)
    {pending : Pending} {rest found : List Pending} (queue : crawl.queue = pending :: rest)
    {record : ModuleRecord} {cache : ModuleCache} (clean : cache.IsClean) (history : History)
    (new : crawl.result.contains record.uri = false) (takes : Takes pending record found) :
    Integrity
      (accept { crawl with queue := rest, cache := cache, history := history } record found) := by
  refine
    { clean := clean
      distinct := ?_
      named := ?_
      proceeds := fun _ => (integrity.proceeds running).accept queue cache history new takes }
  · have missing : record.uri ∉ crawl.result.uris := by
      intro member
      rw [CrawlResult.contains_iff.mpr member] at new
      cases new
    show (crawl.result.insert record).uris.Nodup
    rw [CrawlResult.uris_insert new]
    exact List.Nodup.append integrity.distinct (List.nodup_singleton _)
      (List.disjoint_singleton.mpr missing)
  · intro uri entry member
    rw [Crawl.accept, CrawlResult.entries_insert new] at member
    rcases List.mem_append.mp member with member | member
    · exact integrity.named uri entry member
    · cases List.mem_singleton.mp member
      rfl

theorem Proceeds.skip (proceeds : Proceeds crawl) {pending : Pending} {rest : List Pending}
    (queue : crawl.queue = pending :: rest) (known : crawl.result.contains pending.uri = true) :
    Proceeds { crawl with queue := rest } where
  sourced := fun next member => proceeds.sourced next (queue ▸ List.mem_cons_of_mem _ member)
  resolved := proceeds.resolved
  closed := by
    intro uri record member target bound
    rcases proceeds.closed uri record member target bound with reached | waiting
    · exact .inl reached
    · rw [queue, List.map_cons] at waiting
      rcases List.mem_cons.mp waiting with taken | waiting
      · rw [taken]
        exact .inl (CrawlResult.contains_iff.mp known)
      · exact .inr waiting

theorem Integrity.of_moves (integrity : Integrity crawl) (moves : Moves crawl later) :
    Integrity later := by
  cases moves with
  | finished => exact integrity
  | known running queue contained =>
      exact
        { integrity with
          proceeds := fun _ => (integrity.proceeds running).skip queue contained }
  | broken =>
      refine { integrity with proceeds := ?_ }
      intro unfailed
      cases unfailed
  | cached running queue new _ takes =>
      exact integrity.accept running queue integrity.clean crawl.history new takes
  | taken running queue new miss takes _ _ history =>
      exact integrity.accept running queue (integrity.clean.insert miss takes.resolved _) history
        new takes

/-- What a run keeps: the invariant, and what is in the result. -/
theorem Integrity.run (integrity : Integrity crawl) (calm : world.IsUndisturbed) (count : Nat) :
    Integrity (crawl.run configuration world count) ∧
      ∀ entry ∈ crawl.result.entries,
        entry ∈ (crawl.run configuration world count).result.entries := by
  induction count generalizing crawl with
  | zero => exact ⟨integrity, fun _ member => member⟩
  | succ count induction =>
      have moves : Moves crawl (crawl.step configuration world) := integrity.moves calm
      rcases induction (integrity.of_moves moves) with ⟨runIntegrity, kept⟩
      exact ⟨runIntegrity, fun entry member => kept entry (moves.mem_result member)⟩

/-! The two ways in which a crawl can start. -/

theorem start_of_error {cache : ModuleCache} {root : ModuleRecord} {fault : Fault}
    (failed : (Expansion.ofModule world root.module []).outcome = .error fault) :
    start world cache root =
      { result := CrawlResult.empty.insert (expandedRoot world root)
        queue := []
        cache := cache
        history := (Expansion.ofModule world root.module []).history
        failure := some fault } := by
  rw [start]
  simp only [failed]
  rfl

theorem start_of_ok {cache : ModuleCache} {root : ModuleRecord} {found : List Pending}
    (succeeded : (Expansion.ofModule world root.module []).outcome = .ok found) :
    start world cache root =
      { result := CrawlResult.empty.insert (expandedRoot world root)
        queue := found
        cache := (cache.insertIfNew (expandedRoot world root)).2
        history := (Expansion.ofModule world root.module []).history
        failure := none } := by
  rw [start]
  simp only [succeeded]

@[simp] theorem start_result (world : World) (cache : ModuleCache) (root : ModuleRecord) :
    (start world cache root).result = CrawlResult.empty.insert (expandedRoot world root) := by
  rw [start]
  split <;> rfl

theorem mem_insert_empty {root record : ModuleRecord} {uri : String} :
    (uri, record) ∈ (CrawlResult.empty.insert root).entries ↔ uri = root.uri ∧ record = root := by
  have entries : (CrawlResult.empty.insert root).entries = [(root.uri, root)] := rfl
  rw [entries, List.mem_singleton, Prod.mk.injEq]

theorem integrity_start {cache : ModuleCache} (clean : cache.IsClean) (world : World)
    (root : ModuleRecord) : Integrity (start world cache root) := by
  have named : ∀ uri record,
      (uri, record) ∈ (CrawlResult.empty.insert (expandedRoot world root)).entries →
      record.uri = uri := by
    intro uri record member
    rcases mem_insert_empty.mp member with ⟨rfl, rfl⟩
    rfl
  cases outcome : (Expansion.ofModule world root.module []).outcome with
  | error fault =>
      rw [start_of_error outcome]
      refine
        { clean := clean
          distinct := List.nodup_singleton _
          named := named
          proceeds := ?_ }
      intro unfailed
      cases unfailed
  | ok found =>
      have resolved : (expandedRoot world root).module.table.isFullyResolved = true :=
        Expansion.isFullyResolved_of_ofModule_eq_ok outcome
      have leads : found.map Pending.uri = (expandedRoot world root).module.dependencies :=
        Expansion.map_uri_of_ofModule_eq_ok outcome
      rw [start_of_ok outcome]
      refine
        { clean := clean.insertIfNew resolved
          distinct := List.nodup_singleton _
          named := named
          proceeds := fun _ =>
            { sourced := (Expansion.succeeds_of_ofModule_eq_ok outcome).hasOwnSource
              resolved := ?_
              closed := ?_ } }
      · intro uri record member
        rcases mem_insert_empty.mp member with ⟨rfl, rfl⟩
        exact resolved
      · intro uri record member target bound
        rcases mem_insert_empty.mp member with ⟨rfl, rfl⟩
        rw [← leads] at bound
        exact .inr bound

/-! ## The end of a crawl -/

theorem eq_of_outcome?_eq_ok {result : CrawlResult}
    (finished : crawl.outcome? = some (.ok result)) :
    crawl.failure = none ∧ crawl.queue = [] ∧ crawl.result = result := by
  rw [outcome?] at finished
  split at finished
  · cases finished
  · next running nothing =>
    cases finished
    exact ⟨running, nothing, rfl⟩
  · cases finished

theorem failure_of_outcome?_eq_error {fault : Fault}
    (finished : crawl.outcome? = some (.error fault)) : crawl.failure = some fault := by
  rw [outcome?] at finished
  split at finished
  · next failed =>
    cases finished
    exact failed
  · cases finished
  · cases finished

theorem Integrity.closed_of_outcome? {result : CrawlResult} (integrity : Integrity crawl)
    (finished : crawl.outcome? = some (.ok result)) :
    ∀ uri record, result.get? uri = some record →
      ∀ request ∈ record.module.table.imports, ∀ target, request.target = some target →
        target ∈ result.uris := by
  rcases eq_of_outcome?_eq_ok finished with ⟨running, nothing, rfl⟩
  intro uri record found request member target bound
  have dependency : target ∈ record.module.dependencies :=
    List.mem_filterMap.mpr ⟨request, member, bound⟩
  rcases (integrity.proceeds running).closed uri record
      (CrawlResult.mem_entries_of_get? found) target dependency with reached | waits
  · exact reached
  · rw [nothing] at waits
    cases waits

theorem Integrity.exists_record_of_outcome? {result : CrawlResult} (integrity : Integrity crawl)
    (finished : crawl.outcome? = some (.ok result)) {entry : String × ModuleRecord}
    (found : entry ∈ result.entries) {request : ImportRequest}
    (member : request ∈ entry.2.module.table.imports) :
    ∃ target record, request.target = some target ∧ result.get? target = some record := by
  have closed := integrity.closed_of_outcome? finished
  rcases eq_of_outcome?_eq_ok finished with ⟨running, nothing, rfl⟩
  have resolved := (integrity.proceeds running).resolved entry.1 entry.2 found
  rcases Option.isSome_iff_exists.mp (List.all_eq_true.mp resolved request member) with
    ⟨target, bound⟩
  have stored : crawl.result.get? entry.1 = some entry.2 :=
    CrawlResult.get?_of_mem_entries integrity.distinct found
  have reached := closed entry.1 entry.2 stored request member target bound
  rcases Option.isSome_iff_exists.mp (CrawlResult.contains_iff.mpr reached) with ⟨record, there⟩
  exact ⟨target, record, bound, there⟩

end Crawl

end ServiceModules
