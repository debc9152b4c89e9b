import Mathlib
import ServiceModules.Proofs.Crawl.Sequence
import ServiceModules.Proofs.Program.Table

/-!
Crawling once more. A crawl that has succeeded leaves every record that it has come to in the cache,
its root perhaps excepted. A crawl that begins once more from this root therefore goes the same way
over cached records, step by step, and asks nothing, whatever the world would answer by then.
-/

namespace ServiceModules

namespace World

/-- Whenever it is asked, the world finds by the path of the request the module that the request is
bound to. -/
def StillFinds (world : World) (requester : String) (request : ImportRequest) : Prop :=
  ∀ history, ∃ source,
    world.locate history requester request.path = .ok (.found source) ∧
      request.target = some source.uri

end World

namespace Expansion

theorem ofRequests_of_stillFinds {world : World} {module : Module}
    {requests : List ImportRequest}
    (finds : ∀ request ∈ requests, world.StillFinds module.uri request) (history : History) :
    ∃ found,
      (ofRequests world module history (requests.map ImportRequest.unbound)).outcome = .ok found ∧
      found.map Pending.uri = requests.filterMap ImportRequest.target ∧
      (ofRequests world module history (requests.map ImportRequest.unbound)).history =
        history ++ requests.map fun request => .lookup module.uri request.path := by
  induction requests generalizing history with
  | nil => exact ⟨[], rfl, rfl, (List.append_nil history).symm⟩
  | cons request rest induction =>
      rcases finds request (List.mem_cons_self ..) history with ⟨source, located, bound⟩
      have answered : world.source history module request.unbound = .ok source := by
        have asked : world.locate history module.uri request.unbound.path =
            .ok (.found source) := located
        rw [World.source, asked]
      rcases induction (fun other member => finds other (List.mem_cons_of_mem _ member))
          (history ++ [.lookup module.uri request.path]) with ⟨found, outcome, uris, asked⟩
      have free : request.unbound.target = none := rfl
      have path : request.unbound.path = request.path := rfl
      rw [List.map_cons, ofRequests_cons_ok free answered, path, prepend_outcome, outcome]
      refine ⟨_, rfl, ?_, ?_⟩
      · rw [List.map_cons, List.filterMap_cons_some bound, uris]
      · rw [prepend, asked, List.append_assoc, List.map_cons]
        rfl

end Expansion

namespace Crawl

variable {configuration : Configuration} {world : World} {crawl later again : Crawl}
  {root : ModuleRecord}

/-! ## One step of a crawl that repeats another one -/

/-- The crawl `again` from `root` has come to the same records as `crawl`, whose root may be another
record of the same module, and has the same modules before it. -/
structure Repeats (root : ModuleRecord) (again crawl : Crawl) : Prop where
  running : again.failure = none
  reached : ∃ first rest, crawl.result.entries = (root.uri, first) :: rest ∧
    again.result.entries = (root.uri, root) :: rest
  waiting : again.queue.map Pending.uri = crawl.queue.map Pending.uri

theorem Repeats.contains_eq (repeats : Repeats root again crawl) (uri : String) :
    again.result.contains uri = crawl.result.contains uri := by
  rcases repeats.reached with ⟨first, rest, entries, again⟩
  rw [Bool.eq_iff_iff, CrawlResult.contains_iff, CrawlResult.contains_iff, CrawlResult.uris,
    CrawlResult.uris, entries, again]
  rfl

theorem Repeats.exists_queue {pending : Pending} {rest : List Pending}
    (repeats : Repeats root again crawl) (queue : crawl.queue = pending :: rest) :
    ∃ next others, again.queue = next :: others ∧ next.uri = pending.uri ∧
      others.map Pending.uri = rest.map Pending.uri := by
  have waiting := repeats.waiting
  rw [queue, List.map_cons] at waiting
  rcases List.map_eq_cons_iff.mp waiting with ⟨next, others, equal, uri, tail⟩
  exact ⟨next, others, equal, uri, tail⟩

theorem step_of_known {pending : Pending} {rest : List Pending} (running : crawl.failure = none)
    (queue : crawl.queue = pending :: rest) (known : crawl.result.contains pending.uri = true) :
    crawl.step configuration world = { crawl with queue := rest } := by
  rw [step_of_queue_eq_cons running queue]
  exact if_pos known

theorem step_of_cached {pending : Pending} {rest : List Pending} {record : ModuleRecord}
    (running : crawl.failure = none) (queue : crawl.queue = pending :: rest)
    (new : crawl.result.contains pending.uri = false)
    (hit : crawl.cache.get? pending.uri = some record) :
    crawl.step configuration world =
      accept { crawl with queue := rest } record record.module.pending := by
  rw [step_of_queue_eq_cons running queue, visit, new, if_neg Bool.false_ne_true]
  simp only [hit]

theorem Repeats.accept (repeats : Repeats root again crawl) {pending : Pending}
    {rest found : List Pending} (queue : crawl.queue = pending :: rest) {record : ModuleRecord}
    (cache : ModuleCache) (history : History)
    (new : crawl.result.contains record.uri = false) (takes : Takes pending record found)
    (hit : again.cache.get? record.uri = some record) :
    Repeats root (again.step configuration world)
        (Crawl.accept { crawl with queue := rest, cache := cache, history := history } record
          found) ∧
      (again.step configuration world).cache = again.cache ∧
      (again.step configuration world).history = again.history := by
  rcases repeats.exists_queue queue with ⟨next, others, ahead, same, tail⟩
  have sameUri : next.uri = record.uri := same.trans takes.named.symm
  have newAgain : again.result.contains record.uri = false :=
    (repeats.contains_eq record.uri).trans new
  rw [step_of_cached repeats.running ahead (sameUri ▸ newAgain) (sameUri ▸ hit)]
  refine ⟨{ running := repeats.running, reached := ?_, waiting := ?_ }, rfl, rfl⟩
  · rcases repeats.reached with ⟨first, reached, entries, entriesAgain⟩
    refine ⟨first, reached ++ [(record.uri, record)], ?_, ?_⟩
    · rw [Crawl.accept, CrawlResult.entries_insert new, entries, List.cons_append]
    · rw [Crawl.accept, CrawlResult.entries_insert newAgain, entriesAgain, List.cons_append]
  · rw [Crawl.accept, Crawl.accept, List.map_append, List.map_append, tail, takes.leads,
      Module.pending_map_uri]

/-- A step of a crawl that goes on is nothing, or one step of every crawl that repeats it over a
cache that holds what the step has cached. -/
theorem Repeats.step (repeats : Repeats root again crawl) (moves : Moves crawl later)
    (running : later.failure = none) (keeps : again.cache.Keeps later.cache) :
    later = crawl ∨
      ∀ configuration world, Repeats root (again.step configuration world) later ∧
        (again.step configuration world).cache = again.cache ∧
        (again.step configuration world).history = again.history := by
  cases moves with
  | finished => exact .inl rfl
  | known _ queue contained =>
      right
      intro configuration world
      rcases repeats.exists_queue queue with ⟨next, others, ahead, same, tail⟩
      have known : again.result.contains next.uri = true := by
        rw [repeats.contains_eq, same]
        exact contained
      rw [step_of_known repeats.running ahead known]
      exact
        ⟨{ running := repeats.running, reached := repeats.reached, waiting := tail }, rfl, rfl⟩
  | broken => cases running
  | cached _ queue new hit takes =>
      right
      intro configuration world
      exact repeats.accept queue crawl.cache crawl.history new takes (keeps _ _ hit)
  | @taken _ _ _ record _ queue new miss takes _ _ history =>
      right
      intro configuration world
      have stored : ModuleCache.get? ⟨crawl.cache.entries ++ [(record.uri, record)],
          crawl.cache.next + 1⟩ record.uri = some record := by
        rw [ModuleCache.get?, List.lookup_append, ← ModuleCache.get?, miss]
        simp [List.lookup]
      exact repeats.accept queue _ history new takes (keeps _ _ stored)

/-! ## A whole crawl that is repeated -/

/-- Whatever repeats `first` repeats `crawl` after `count` steps and asks nothing on the way,
provided that its cache holds what that of `crawl` holds. -/
def Retraces (first crawl : Crawl) (count : Nat) : Prop :=
  ∀ root again, Repeats root again first → again.cache.Keeps crawl.cache →
    ∀ answers, answers.length = count →
      Repeats root (again.runThrough answers) crawl ∧
        (again.runThrough answers).cache = again.cache ∧
        (again.runThrough answers).history = again.history

theorem runThrough_append (front back : List (Configuration × World)) (crawl : Crawl) :
    crawl.runThrough (front ++ back) = (crawl.runThrough front).runThrough back := by
  induction front generalizing crawl with
  | nil => rfl
  | cons answers rest induction =>
      rw [List.cons_append, runThrough, runThrough]
      exact induction _

theorem retraces_refl (crawl : Crawl) : Retraces crawl crawl 0 := by
  intro root again repeats _ answers none
  rw [List.length_eq_zero_iff.mp none]
  exact ⟨repeats, rfl, rfl⟩

theorem Retraces.moves {first : Crawl} {count : Nat} (retraces : Retraces first crawl count)
    (moves : Moves crawl later) (running : later.failure = none) :
    ∃ more, Retraces first later more := by
  by_cases same : later = crawl
  · exact ⟨count, same ▸ retraces⟩
  · refine ⟨count + 1, ?_⟩
    intro root again repeats keeps answers length
    have kept : again.cache.Keeps crawl.cache := fun uri record found =>
      keeps uri record (moves.get?_cache found)
    have nonempty : answers ≠ [] := by
      rintro rfl
      cases length
    rw [← List.dropLast_concat_getLast nonempty] at length ⊢
    rw [List.length_append, List.length_singleton] at length
    rcases retraces root again repeats kept answers.dropLast (Nat.succ.inj length) with
      ⟨repeated, cache, history⟩
    rw [← cache] at keeps
    rcases repeated.step moves running keeps with stays | goes
    · exact absurd stays same
    · rcases goes (answers.getLast nonempty).1 (answers.getLast nonempty).2 with
        ⟨stepped, cacheStep, historyStep⟩
      rw [runThrough_append]
      exact ⟨stepped, cacheStep.trans cache, historyStep.trans history⟩

theorem Moves.exists_entries_eq (moves : Moves crawl later) :
    ∃ more, later.result.entries = crawl.result.entries ++ more := by
  cases moves with
  | finished | known | broken => exact ⟨[], (List.append_nil _).symm⟩
  | cached _ _ new => exact ⟨_, CrawlResult.entries_insert new⟩
  | taken _ _ new => exact ⟨_, CrawlResult.entries_insert new⟩

/-- A crawl that has just begun from a record of the module `uri` whose requests lead to
`targets`. -/
structure Begins (crawl : Crawl) (uri : String) (root : ModuleRecord) (targets : List String) :
    Prop where
  running : crawl.failure = none
  reached : crawl.result.entries = [(uri, root)]
  waiting : crawl.queue.map Pending.uri = targets

/-- A crawl that goes on, with the root that it has begun from: everything that it has done so far
can be done once more. -/
structure Retraceable (root : ModuleRecord) (crawl : Crawl) : Prop where
  resolved : root.module.table.isFullyResolved = true
  rooted : ∃ rest, crawl.result.entries = (root.uri, root) :: rest
  retraces : ∃ first count, Begins first root.uri root root.module.dependencies ∧
    Retraces first crawl count

theorem retraceable_start {cache : ModuleCache}
    (running : (start world cache root).failure = none) :
    Retraceable (expandedRoot world root) (start world cache root) := by
  cases outcome : (Expansion.ofModule world root.module []).outcome with
  | error fault =>
      rw [start_of_error outcome] at running
      cases running
  | ok found =>
      have leads : found.map Pending.uri = (expandedRoot world root).module.dependencies :=
        Expansion.map_uri_of_ofModule_eq_ok outcome
      have reached : (start world cache root).result.entries =
          [((expandedRoot world root).uri, expandedRoot world root)] := by
        rw [start_result]
        rfl
      have waiting : (start world cache root).queue.map Pending.uri =
          (expandedRoot world root).module.dependencies := by
        rw [start_of_ok outcome]
        exact leads
      exact
        { resolved := Expansion.isFullyResolved_of_ofModule_eq_ok outcome
          rooted := ⟨[], reached⟩
          retraces := ⟨_, 0, ⟨running, reached, waiting⟩, retraces_refl _⟩ }

theorem Retraceable.moves (retraceable : Retraceable root crawl) (moves : Moves crawl later)
    (running : later.failure = none) : Retraceable root later := by
  rcases retraceable.rooted with ⟨rest, entries⟩
  rcases moves.exists_entries_eq with ⟨more, longer⟩
  rcases retraceable.retraces with ⟨first, count, begins, retraces⟩
  rcases retraces.moves moves running with ⟨longerCount, longerRetraces⟩
  exact
    { resolved := retraceable.resolved
      rooted := ⟨rest ++ more, by rw [longer, entries, List.cons_append]⟩
      retraces := ⟨first, longerCount, begins, longerRetraces⟩ }

theorem Retraceable.withCache (retraceable : Retraceable root crawl) {cache : ModuleCache}
    (keeps : cache.Keeps crawl.cache) : Retraceable root { crawl with cache := cache } := by
  rcases retraceable.retraces with ⟨first, count, begins, retraces⟩
  refine
    { resolved := retraceable.resolved
      rooted := retraceable.rooted
      retraces := ⟨first, count, begins, ?_⟩ }
  intro fresh again repeats kept answers length
  rcases retraces fresh again repeats (fun uri record found => kept uri record (keeps uri record
    found)) answers length with ⟨repeated, same⟩
  exact ⟨⟨repeated.running, repeated.reached, repeated.waiting⟩, same⟩

theorem Moves.running_before (moves : Moves crawl later) (running : later.failure = none) :
    crawl.failure = none := by
  cases moves with
  | finished => exact running
  | known on | cached on | taken on => exact on
  | broken => cases running

/-- What a crawl comes to that begins once more from the root of a crawl that has succeeded. -/
theorem Retraceable.exists_outcome? (retraceable : Retraceable root crawl) {result : CrawlResult}
    (finished : crawl.outcome? = some (.ok result)) :
    ∃ rest count, result.entries = (root.uri, root) :: rest ∧
      ∀ (fresh : ModuleRecord) (again : Crawl), fresh.uri = root.uri →
        Begins again root.uri fresh root.module.dependencies →
        again.cache.Keeps crawl.cache → ∀ answers, answers.length = count →
          (again.runThrough answers).outcome? = some (.ok ⟨(root.uri, fresh) :: rest⟩) ∧
          (again.runThrough answers).history = again.history := by
  rcases eq_of_outcome?_eq_ok finished with ⟨_, nothing, rfl⟩
  rcases retraceable.rooted with ⟨rest, entries⟩
  rcases retraceable.retraces with ⟨first, count, firstBegins, retraces⟩
  refine ⟨rest, count, entries, ?_⟩
  intro fresh again own begins keeps answers length
  have repeats : Repeats fresh again first :=
    { running := begins.running
      reached := ⟨root, [], by rw [firstBegins.reached, own], by rw [begins.reached, own]⟩
      waiting := begins.waiting.trans firstBegins.waiting.symm }
  rcases retraces fresh again repeats keeps answers length with ⟨repeated, _, history⟩
  rcases repeated.reached with ⟨_, others, entriesThere, entriesHere⟩
  have same : others = rest := by
    rw [entries] at entriesThere
    exact (List.cons.inj entriesThere).2.symm
  have ended : (again.runThrough answers).queue = [] := by
    have waiting := repeated.waiting
    rw [nothing] at waiting
    exact List.map_eq_nil_iff.mp waiting
  refine ⟨?_, history⟩
  rw [outcome?, repeated.running, ended, ← own, ← same, ← entriesHere]

end Crawl

namespace CrawlSequence

variable {sequence later : CrawlSequence} {root : ModuleRecord} {result : CrawlResult}

/-! ## Sequences -/

theorem Reachable.empty_or_retraceable (reachable : sequence.Reachable)
    (running : sequence.current.failure = none) :
    sequence.current.result.entries = [] ∧ sequence.current.queue = [] ∨
      ∃ first, Crawl.Retraceable first sequence.current := by
  induction reachable with
  | refl => exact .inl ⟨rfl, rfl⟩
  | @tail before after leads next induction =>
      have sound := Reachable.sound leads
      cases next with
      | receive module read =>
          rcases induction running with empty | ⟨first, retraceable⟩
          · exact .inl empty
          · exact .inr ⟨first, retraceable.withCache fun _ _ found => found⟩
      | start world first member =>
          rw [sound.start_eq world member] at running ⊢
          exact .inr ⟨_, Crawl.retraceable_start running⟩
      | advance configuration world calm =>
          have moves : before.current.Moves (before.current.step configuration world) :=
            sound.integrity.moves calm
          have runningBefore := moves.running_before running
          rcases induction runningBefore with empty | ⟨first, retraceable⟩
          · have stays : before.current.step configuration world = before.current :=
              Crawl.step_of_outcome? (Crawl.outcome?_of_queue_eq_nil runningBefore empty.2)
            rw [advance, stays]
            exact .inl empty
          · exact .inr ⟨first, retraceable.moves moves running⟩

theorem Reachable.retraceable (reachable : sequence.Reachable)
    (finished : sequence.current.outcome? = some (.ok result))
    (rooted : result.records.head? = some root) : Crawl.Retraceable root sequence.current := by
  rcases Crawl.eq_of_outcome?_eq_ok finished with ⟨running, _, rfl⟩
  rcases reachable.empty_or_retraceable running with ⟨empty, _⟩ | ⟨first, retraceable⟩
  · rw [CrawlResult.records, empty] at rooted
    cases rooted
  · rcases retraceable.rooted with ⟨rest, entries⟩
    rw [CrawlResult.records, entries] at rooted
    cases rooted
    exact retraceable

theorem Sound.mem_cache_records_next (sound : sequence.Sound) (next : Next sequence later)
    {record : ModuleRecord} (member : record ∈ sequence.current.cache.records) :
    record ∈ later.current.cache.records := by
  rcases List.mem_map.mp member with ⟨entry, entryMember, rfl⟩
  have found : sequence.current.cache.get? entry.1 = some entry.2 :=
    ModuleCache.get?_of_mem_entries sound.integrity.clean.distinct entryMember
  exact List.mem_map.mpr
    ⟨_, ModuleCache.mem_entries_of_get? (sound.get?_next next found), rfl⟩

/-- A record that has nothing left to be bound is held for ever, and stays as it is. -/
theorem Sound.mem_records_next (sound : sequence.Sound) (next : Next sequence later)
    {record : ModuleRecord} (member : record ∈ sequence.records)
    (resolved : record.module.table.isFullyResolved = true) : record ∈ later.records := by
  rcases List.mem_append.mp member with outside | cached
  · cases next with
    | receive module read =>
        rcases List.mem_append.mp outside with held | reached
        · exact mem_records.mpr (.inl (List.mem_cons_of_mem _ held))
        · exact mem_records.mpr (.inr (.inl reached))
    | start world root rootMember =>
        rw [sound.start_eq world rootMember]
        exact mem_records.mpr (.inl (List.mem_map.mpr ⟨record, outside,
          sound.refreshedBy_of_isFullyResolved rootMember world member resolved⟩))
    | advance configuration world calm =>
        have moves : sequence.current.Moves (sequence.current.step configuration world) :=
          sound.integrity.moves calm
        rcases List.mem_append.mp outside with held | reached
        · exact mem_records.mpr (.inl held)
        · rcases List.mem_map.mp reached with ⟨entry, entryMember, rfl⟩
          exact mem_records.mpr (.inr (.inl (List.mem_map_of_mem (moves.mem_result entryMember))))
  · exact mem_records.mpr (.inr (.inr (sound.mem_cache_records_next next cached)))

theorem Sound.mem_records_leads (sound : sequence.Sound) (leads : Leads sequence later)
    {record : ModuleRecord} (member : record ∈ sequence.records)
    (resolved : record.module.table.isFullyResolved = true) : record ∈ later.records := by
  induction leads with
  | refl => exact member
  | tail earlier next induction =>
      exact (sound.leads earlier).mem_records_next next induction resolved

/-! The two ways in which a crawl can begin once more: from the root itself, which asks nothing, and
from a record that was read anew. -/

theorem begins_start_resolved (world : World) (cache : ModuleCache)
    (resolved : root.module.table.isFullyResolved = true) :
    (Crawl.start world cache root).Begins root.uri root root.module.dependencies ∧
      (Crawl.start world cache root).history = [] := by
  have expansion : Expansion.ofModule world root.module [] =
      ⟨.ok root.module.pending, root.module.table.imports, []⟩ :=
    Expansion.ofModule_of_isFullyResolved resolved
  have outcome : (Expansion.ofModule world root.module []).outcome =
      .ok root.module.pending := by rw [expansion]
  rw [Crawl.start_of_ok outcome, expandedRoot_of_isFullyResolved resolved, expansion]
  exact ⟨⟨rfl, rfl, Module.pending_map_uri root.module⟩, rfl⟩

theorem imports_of_ofText_eq_ok {keeps : Bool} {module fresh : Module} (read : module.IsRead)
    (readFresh : Module.ofText keeps module.uri module.text = .ok fresh) :
    fresh.table.imports = module.table.imports.map ImportRequest.unbound := by
  rcases read with ⟨keepsModule, readModule⟩
  rw [Module.table_unique readFresh readModule]
  rfl

theorem begins_start_fresh {world : World} {keeps : Bool} {module fresh : Module}
    (read : module.IsRead)
    (readFresh : Module.ofText keeps module.uri module.text = .ok fresh)
    (finds : ∀ request ∈ module.table.imports, world.StillFinds module.uri request)
    (cache : ModuleCache) (number : Nat) :
    (Crawl.start world cache ⟨fresh, number⟩).Begins module.uri
        (Crawl.expandedRoot world ⟨fresh, number⟩) module.dependencies ∧
      (Crawl.start world cache ⟨fresh, number⟩).history =
        module.table.imports.map fun request => .lookup module.uri request.path := by
  have own : fresh.uri = module.uri := Module.uri_of_ofText_eq_ok readFresh
  have imports := imports_of_ofText_eq_ok read readFresh
  rw [← own] at finds
  rcases Expansion.ofRequests_of_stillFinds finds [] with ⟨found, outcome, uris, asked⟩
  rw [← imports] at outcome asked
  have succeeded : (Expansion.ofModule world fresh []).outcome = .ok found := outcome
  have start := @Crawl.start_of_ok world cache ⟨fresh, number⟩ found succeeded
  rw [start, ← own]
  exact ⟨⟨rfl, rfl, uris⟩, asked⟩

/-- Crawling is idempotent. A crawl that begins once more from the root of a crawl that has
succeeded, whatever has happened since, comes to the same records in the same order and asks
nothing. If it begins from a record that was read anew from the text of the root, and the imports of
the root are still found, it comes to the same records but for the root, and asks for these imports
only. -/
theorem Reachable.crawl_again (reachable : sequence.Reachable)
    (finished : sequence.current.outcome? = some (.ok result))
    (rooted : result.records.head? = some root) (leads : Leads sequence later) :
    root ∈ later.records ∧ ∃ count,
      (∀ world answers, answers.length = count →
        let again := (later.start world root).current.runThrough answers
        again.outcome? = some (.ok result) ∧ again.history = []) ∧
      ∀ keeps fresh, Module.ofText keeps root.uri root.module.text = .ok fresh →
        ∀ world, (∀ request ∈ root.module.table.imports, world.StillFinds root.uri request) →
        ∀ answers, answers.length = count →
          let again := ((later.receive fresh).start world
            ⟨fresh, later.current.cache.next⟩).current.runThrough answers
          ∃ resultAgain, again.outcome? = some (.ok resultAgain) ∧
            resultAgain.uris = result.uris ∧
            (∀ uri, uri ≠ root.uri → resultAgain.get? uri = result.get? uri) ∧
            again.history =
              root.module.table.imports.map fun request => .lookup root.uri request.path := by
  have sound := reachable.sound
  have laterSound := sound.leads leads
  have retraceable := reachable.retraceable finished rooted
  rcases retraceable.exists_outcome? finished with ⟨rest, count, entries, again⟩
  have member : root ∈ later.records := by
    rcases retraceable.rooted with ⟨others, stored⟩
    apply sound.mem_records_leads leads _ retraceable.resolved
    apply mem_records.mpr (.inr (.inl _))
    rw [CrawlResult.records, stored]
    exact List.mem_cons_self ..
  refine ⟨member, count, ?_, ?_⟩
  -- From the root as it is held: all its requests are bound, and nothing is asked.
  · intro world answers length
    have keeps := fun uri record => @Sound.get?_leads _ _ sound
      (leads.tail (.start world root member)) uri record
    rw [laterSound.start_eq world member] at keeps ⊢
    rcases begins_start_resolved world later.current.cache retraceable.resolved with
      ⟨begins, asked⟩
    have same : result = ⟨(root.uri, root) :: rest⟩ := by rw [← entries]
    rw [same]
    rcases again root _ rfl begins keeps answers length with ⟨outcome, history⟩
    exact ⟨outcome, history.trans asked⟩
  -- From the root read anew: only its own requests are asked for, and are bound as they were.
  · intro keepsDocumentation fresh readFresh world finds answers length
    have own : fresh.uri = root.uri := Module.uri_of_ofText_eq_ok readFresh
    have received : Next later (later.receive fresh) :=
      .receive fresh (Module.isRead_of_ofText_eq_ok readFresh)
    have freshMember : ⟨fresh, later.current.cache.next⟩ ∈ (later.receive fresh).records :=
      mem_records.mpr (.inl (List.mem_cons_self ..))
    have keeps := fun uri record => @Sound.get?_leads _ _ sound
      ((leads.tail received).tail (.start world _ freshMember)) uri record
    rw [(laterSound.next received).start_eq world freshMember] at keeps ⊢
    rcases begins_start_fresh (laterSound.read root member) readFresh finds
      (later.receive fresh).current.cache later.current.cache.next with ⟨begins, asked⟩
    rcases again (Crawl.expandedRoot world ⟨fresh, later.current.cache.next⟩) _ own begins keeps
      answers length with ⟨outcome, history⟩
    refine ⟨_, outcome, ?_, ?_, history.trans asked⟩
    · rw [CrawlResult.uris, CrawlResult.uris, entries]
      rfl
    · intro uri other
      have different : (uri == root.uri) = false := beq_false_of_ne other
      rw [CrawlResult.get?, CrawlResult.get?, entries, List.lookup_cons, List.lookup_cons,
        different]

/-! Two modules that import each other, and a crawl in between that fails. -/

def revisitedText : String := "from b import B\ntype A: B"

def revisitedSurroundings : Surroundings :=
  .ofTexts [("a", revisitedText), ("b", "from a import A\ntype B: A")]

def revisitedRoot : Module := (Module.ofText false "a" revisitedText).toOption.getD default

def strayRoot : Module := (Module.ofText false "c" "from d import D").toOption.getD default

def visited : CrawlSequence :=
  (((initial.receive revisitedRoot).start revisitedSurroundings.world ⟨revisitedRoot, 0⟩).advance
    default revisitedSurroundings.world).advance default revisitedSurroundings.world

def strayed : CrawlSequence :=
  (visited.receive strayRoot).start revisitedSurroundings.world ⟨strayRoot, 2⟩

def visitedRoot : ModuleRecord :=
  Crawl.expandedRoot revisitedSurroundings.world ⟨revisitedRoot, 0⟩

theorem visited_reachable : visited.Reachable := by
  have read : Module.ofText false "a" revisitedText = .ok revisitedRoot := by cbv
  have calm : revisitedSurroundings.world.IsUndisturbed :=
    revisitedSurroundings.world_isUndisturbed
  exact .tail (.tail (.tail (.tail .refl
    (.receive revisitedRoot (Module.isRead_of_ofText_eq_ok read)))
    (.start revisitedSurroundings.world _ (List.mem_cons_self ..)))
    (.advance default _ calm)) (.advance default _ calm)

theorem visited_leads : Leads visited strayed := by
  have read : Module.ofText false "c" "from d import D" = .ok strayRoot := by cbv
  have number : visited.current.cache.next = 2 := by cbv
  refine .tail (.tail .refl (.receive strayRoot (Module.isRead_of_ofText_eq_ok read)))
    (.start revisitedSurroundings.world _ ?_)
  rw [← number]
  exact List.mem_cons_self ..

theorem visitedRoot_stillFinds : ∀ request ∈ visitedRoot.module.table.imports,
    revisitedSurroundings.world.StillFinds visitedRoot.uri request := by
  have imports : visitedRoot.module.table.imports =
      [⟨⟨0, ["b"]⟩, [⟨"B", "B", some ⟨"a", 1, 15, 1, 16⟩, [⟨"a", 2, 9, 2, 10⟩]⟩],
        some ⟨"a", 1, 6, 1, 7⟩, some "b"⟩] := by cbv
  rw [imports]
  intro request member history
  cases List.mem_singleton.mp member
  exact ⟨⟨"b", .held (Utf8.encode "from a import A\ntype B: A".toList)⟩, by cbv, rfl⟩

theorem crawl_again_visited :
    visited.Reachable ∧ Leads visited strayed ∧
      ∃ result fresh count, visited.current.outcome? = some (.ok result) ∧
        result.records.head? = some visitedRoot ∧
        Module.ofText true visitedRoot.uri visitedRoot.module.text = .ok fresh ∧
        (∀ request ∈ visitedRoot.module.table.imports,
          revisitedSurroundings.world.StillFinds visitedRoot.uri request) ∧
        (∀ world answers, answers.length = count →
          ((strayed.start world visitedRoot).current.runThrough answers).outcome?
            = some (.ok result)) ∧
        ∀ answers, answers.length = count → ∃ resultAgain,
          (((strayed.receive fresh).start revisitedSurroundings.world
            ⟨fresh, strayed.current.cache.next⟩).current.runThrough answers).outcome?
              = some (.ok resultAgain) ∧ resultAgain.uris = result.uris := by
  have comes : visited.current.outcome? = some (.ok visited.current.result) ∧
      visited.current.result.records.head? = some visitedRoot := by cbv
  rcases comes with ⟨finished, rooted⟩
  have read : Module.ofText true visitedRoot.uri visitedRoot.module.text =
      .ok ((Module.ofText true "a" revisitedText).toOption.getD default) := by cbv
  rcases visited_reachable.crawl_again finished rooted visited_leads with
    ⟨_, count, same, anew⟩
  refine ⟨visited_reachable, visited_leads, _, _, count, finished, rooted, read,
    visitedRoot_stillFinds, fun world answers length => (same world answers length).1,
    fun answers length => ?_⟩
  rcases anew true _ read _ visitedRoot_stillFinds answers length with
    ⟨resultAgain, outcome, uris, _⟩
  exact ⟨resultAgain, outcome, uris⟩

end CrawlSequence

end ServiceModules
