import Mathlib
import ServiceModules.Proofs.Crawl.Integrity
import ServiceModules.Proofs.Crawl.Surroundings

/-!
Which modules a crawl loads. Others may put modules into the cache meanwhile, as long as they take
none out. Every module is then loaded once at most, and none that the crawl has begun from or that
was cached when it began; if nobody interferes, a crawl that succeeds has loaded all that it has
reached besides.
-/

namespace ServiceModules

namespace History

@[simp] theorem loads_append (front back : History) :
    loads (front ++ back) = loads front ++ loads back :=
  List.filterMap_append

end History

namespace Expansion

@[simp] theorem loads_history (world : World) (module : Module) (history : History) :
    (ofModule world module history).history.loads = history.loads := by
  rw [ofModule]
  induction module.table.imports generalizing history with
  | nil => rfl
  | cons request rest induction =>
      cases bound : request.target with
      | some target =>
          rw [ofRequests_cons_bound bound]
          exact induction history
      | none =>
          have asked : History.loads (history ++ [.lookup module.uri request.path]) =
              history.loads := by simp [History.loads]
          cases located : world.source history module request with
          | error fault =>
              rw [ofRequests_cons_error bound located]
              exact asked
          | ok source =>
              rw [ofRequests_cons_ok bound located]
              exact (induction _).trans asked

end Expansion

namespace ModuleCache

variable {cache earlier : ModuleCache} {record : ModuleRecord}

/-- Every record is found under its own identifier, as in any cache that records are only put into
by `insertIfNew`. -/
def IsNamed (cache : ModuleCache) : Prop :=
  ∀ uri record, cache.get? uri = some record → record.uri = uri

structure Gains (cache earlier : ModuleCache) (record : ModuleRecord) : Prop where
  stored : cache.get? record.uri = some record
  kept : cache.Keeps earlier
  added : ∀ uri, cache.contains uri = true → earlier.contains uri = true ∨ uri = record.uri

theorem Gains.isNamed (gains : cache.Gains earlier record) (named : earlier.IsNamed) :
    cache.IsNamed := by
  intro uri other found
  have contained : cache.contains uri = true := by rw [contains, found]; rfl
  rcases gains.added uri contained with before | rfl
  · rcases Option.isSome_iff_exists.mp before with ⟨first, foundBefore⟩
    have same := gains.kept uri first foundBefore
    rw [found] at same
    cases same
    exact named uri other foundBefore
  · rw [gains.stored] at found
    cases found
    rfl

theorem Gains.renumbered {next : Nat} (gains : cache.Gains ⟨earlier.entries, next⟩ record) :
    cache.Gains earlier record :=
  ⟨gains.stored, gains.kept, gains.added⟩

theorem gains_of_get? (found : cache.get? record.uri = some record) : cache.Gains cache record where
  stored := found
  kept := fun _ _ held => held
  added := fun _ contained => .inl contained

theorem gains_insertIfNew (missing : cache.get? record.uri = none) :
    (cache.insertIfNew record).2.Gains cache record := by
  have entries : (cache.insertIfNew record).2.entries =
      cache.entries ++ [(record.uri, record)] := by rw [insertIfNew_of_missing missing]
  refine
    { stored := ?_
      kept := fun uri other found => get?_insertIfNew_of_get? found
      added := ?_ }
  · rw [get?, entries, List.lookup_append, ← get?, missing, Option.none_or]
    exact List.lookup_cons_self
  · intro uri contained
    rw [contains, get?, entries, List.lookup_append] at contained
    cases found : cache.get? uri with
    | some other => exact .inl (by rw [contains, found]; rfl)
    | none =>
        rw [← get?, found] at contained
        by_cases same : uri = record.uri
        · exact .inr same
        · simp [List.lookup, beq_false_of_ne same] at contained

end ModuleCache

namespace World

/-- What others do meanwhile is to put modules into the cache, each under its own identifier. -/
structure OnlyAdds (world : World) : Prop where
  keeps : ∀ uri cache, (world.meanwhile uri cache).2.Keeps cache
  named : ∀ uri cache, cache.IsNamed → (world.meanwhile uri cache).2.IsNamed

theorem IsUndisturbed.onlyAdds {world : World} (calm : world.IsUndisturbed) : world.OnlyAdds where
  keeps := by
    intro uri cache other record found
    rw [calm]
    exact found
  named := by
    intro uri cache named
    rw [calm]
    exact named

end World

namespace Crawl

/-! ## What a visit can come to -/

/-- What a visit can come to, whoever else writes into the cache: the module is known or cached, it
is not located again, it is loaded in vain, or it is loaded and then taken as it is in the cache. -/
inductive Handles (world : World) (crawl : Crawl) (pending : Pending) : Crawl → Prop
  | known (contained : crawl.result.contains pending.uri = true) :
      Handles world crawl pending crawl
  | cached {record : ModuleRecord} (new : crawl.result.contains pending.uri = false)
      (hit : crawl.cache.get? pending.uri = some record) :
      Handles world crawl pending (crawl.accept record record.module.pending)
  | lost {history : History} {fault : Fault} (asked : history.loads = crawl.history.loads) :
      Handles world crawl pending (fail { crawl with history := history } fault)
  | broken {history : History} {fault : Fault} (new : crawl.result.contains pending.uri = false)
      (miss : crawl.cache.get? pending.uri = none)
      (loaded : history.loads = crawl.history.loads ++ [pending.uri]) :
      Handles world crawl pending
        (fail
          { crawl with
            cache := (world.meanwhile pending.uri crawl.cache).2
            history := history } fault)
  | taken {history : History} {cache : ModuleCache} {record : ModuleRecord} {found : List Pending}
      (new : crawl.result.contains pending.uri = false)
      (miss : crawl.cache.get? pending.uri = none)
      (loaded : history.loads = crawl.history.loads ++ [pending.uri])
      (named : record.uri = pending.uri)
      (gains : cache.Gains (world.meanwhile pending.uri crawl.cache).2 record)
      (sourced : ∀ next ∈ found, next.HasOwnSource) :
      Handles world crawl pending
        (accept { crawl with cache := cache, history := history } record found)

variable {configuration : Configuration} {world : World} {crawl later : Crawl} {pending : Pending}

theorem keep_eq_accept (named : crawl.cache.IsNamed) (module : Module) {found : List Pending}
    (sourced : ∀ next ∈ found, next.HasOwnSource) :
    ∃ cache record next,
      crawl.keep module found = accept { crawl with cache := cache } record next ∧
      record.uri = module.uri ∧ cache.Gains crawl.cache record ∧
      ∀ pending ∈ next, pending.HasOwnSource := by
  rw [keep]
  simp only [ModuleCache.record]
  split
  · next kept hit =>
    have same : kept.uri = module.uri := named module.uri kept hit
    have found : ModuleCache.get? ⟨crawl.cache.entries, crawl.cache.next + 1⟩ kept.uri =
        some kept := by
      rw [same]
      exact hit
    exact ⟨_, kept, _, rfl, same, (ModuleCache.gains_of_get? found).renumbered,
      fun pending member => Module.hasOwnSource_of_mem_pending member⟩
  · next miss =>
    exact ⟨_, _, found, rfl, rfl, (ModuleCache.gains_insertIfNew miss).renumbered, sourced⟩

theorem handles_load (adds : world.OnlyAdds) (named : crawl.cache.IsNamed)
    (new : crawl.result.contains pending.uri = false)
    (miss : crawl.cache.get? pending.uri = none) {history : History}
    (asked : history.loads = crawl.history.loads) {source : ModuleSource}
    (own : source.uri = pending.uri) :
    Handles world crawl pending
      (load configuration world { crawl with history := history } source) := by
  have loaded : History.loads (history ++ [.load source.uri]) =
      crawl.history.loads ++ [pending.uri] := by
    rw [History.loads_append, asked, ← own]
    rfl
  have othersNamed := adds.named pending.uri crawl.cache named
  rw [load, own]
  rcases interrupted : world.meanwhile pending.uri crawl.cache with ⟨interruption, others⟩
  have cache : (world.meanwhile pending.uri crawl.cache).2 = others := by rw [interrupted]
  simp only
  rw [cache] at othersNamed
  rw [own] at loaded
  -- Whatever stops the load from here on, the content has been asked for.
  cases interruption with
  | some fault => exact cache ▸ .broken new miss loaded
  | none =>
      simp only
      cases read : world.load configuration (history ++ [.load pending.uri]) source with
      | error fault => exact cache ▸ .broken new miss loaded
      | ok module =>
          have sameUri : module.uri = pending.uri := (World.uri_of_load_eq_ok read).trans own
          have expanded : (Expansion.ofModule world module
              (history ++ [.load pending.uri])).history.loads =
                crawl.history.loads ++ [pending.uri] := by
            rw [Expansion.loads_history, loaded]
          simp only
          rw [expand]
          simp only
          cases outcome : (Expansion.ofModule world module
              (history ++ [.load pending.uri])).outcome with
          | error fault => exact cache ▸ .broken new miss expanded
          | ok found =>
              have sourced := (Expansion.succeeds_of_ofModule_eq_ok outcome).hasOwnSource
              simp only
              rcases @keep_eq_accept
                { crawl with
                  cache := others
                  history := (Expansion.ofModule world module
                    (history ++ [.load pending.uri])).history }
                othersNamed _ found sourced with ⟨final, record, next, kept, own, gains, sourced⟩
              rw [kept]
              exact .taken new miss expanded (own.trans sameUri) (cache ▸ gains) sourced

theorem handles_visit (adds : world.OnlyAdds) (named : crawl.cache.IsNamed)
    (own : pending.HasOwnSource) :
    Handles world crawl pending (crawl.visit configuration world pending) := by
  cases contained : crawl.result.contains pending.uri with
  | true =>
      rw [visit, if_pos contained]
      exact .known contained
  | false =>
      cases hit : crawl.cache.get? pending.uri with
      | some record =>
          rw [visit, contained, if_neg Bool.false_ne_true, hit]
          exact .cached contained hit
      | none =>
          have asked : History.loads
              (crawl.history ++ [.lookup pending.importer.uri pending.request.path]) =
                crawl.history.loads := by simp [History.loads]
          rcases exists_sources_or_loses world crawl.history pending with
            ⟨history, source, sources⟩ | ⟨unheld, fault, loses⟩
          · have same : history.loads = crawl.history.loads := by
              cases sources with
              | held => rfl
              | located => exact asked
            rw [visit_of_sources contained hit sources]
            exact handles_load adds named contained hit same (sources.uri_eq own)
          · rw [visit_of_loses contained hit unheld loses]
            exact .lost asked

/-- A step does nothing, or it handles the first pending module. -/
theorem handles_step (adds : world.OnlyAdds) (named : crawl.cache.IsNamed)
    (sourced : crawl.failure = none → ∀ pending ∈ crawl.queue, pending.HasOwnSource) :
    crawl.step configuration world = crawl ∨
      ∃ pending rest, crawl.failure = none ∧ crawl.queue = pending :: rest ∧
        Handles world { crawl with queue := rest } pending (crawl.step configuration world) := by
  rw [step]
  split
  · next pending rest running queue =>
    have own := sourced running pending (queue ▸ List.mem_cons_self ..)
    exact .inr ⟨pending, rest, running, queue, handles_visit adds named own⟩
  · exact .inl rfl

/-! ## What was loaded -/

/-- What a crawl from `root` may load over `cache`: nothing twice, neither the root nor what was
cached. -/
structure IsFresh (cache : ModuleCache) (root : String) (loads : List String) : Prop where
  distinct : loads.Nodup
  rootless : root ∉ loads
  uncached : ∀ uri ∈ loads, cache.contains uri = false

structure Retains (root : String) (crawl : Crawl) : Prop where
  rooted : crawl.result.contains root = true
  stored : ∀ uri ∈ crawl.history.loads, ∃ record,
    crawl.result.get? uri = some record ∧ crawl.cache.get? uri = some record
  sourced : ∀ pending ∈ crawl.queue, pending.HasOwnSource

/-- The invariant of a crawl that has begun from `root` over `cache`. -/
structure LoadsOnce (cache : ModuleCache) (root : String) (crawl : Crawl) : Prop where
  fresh : IsFresh cache root crawl.history.loads
  named : crawl.cache.IsNamed
  keeps : crawl.cache.Keeps cache
  retains : crawl.failure = none → Retains root crawl

variable {cache : ModuleCache} {root : String}

theorem LoadsOnce.isFresh_append (once : LoadsOnce cache root crawl)
    (running : crawl.failure = none) {uri : String} (new : crawl.result.contains uri = false)
    (miss : crawl.cache.get? uri = none) :
    IsFresh cache root (crawl.history.loads ++ [uri]) := by
  have retains := once.retains running
  have unloaded : uri ∉ crawl.history.loads := by
    intro member
    rcases retains.stored uri member with ⟨record, _, cached⟩
    rw [miss] at cached
    cases cached
  have other : root ≠ uri := by
    rintro rfl
    rw [retains.rooted] at new
    cases new
  have uncached : cache.contains uri = false := by
    cases held : cache.get? uri with
    | none => rw [ModuleCache.contains, held]; rfl
    | some record =>
        have kept := once.keeps uri record held
        rw [miss] at kept
        cases kept
  refine
    { distinct := ?_
      rootless := ?_
      uncached := ?_ }
  · exact List.Nodup.append once.fresh.distinct (List.nodup_singleton _)
      (List.disjoint_singleton.mpr unloaded)
  · simp [once.fresh.rootless, other]
  · intro loaded member
    rcases List.mem_append.mp member with before | now
    · exact once.fresh.uncached loaded before
    · rw [List.mem_singleton.mp now]
      exact uncached

theorem Retains.accept (retains : Retains root crawl) {record : ModuleRecord}
    {found : List Pending} {after : ModuleCache} {history : History}
    (new : crawl.result.contains record.uri = false) (kept : after.Keeps crawl.cache)
    (loaded : history.loads = crawl.history.loads ∨
      history.loads = crawl.history.loads ++ [record.uri] ∧
        after.get? record.uri = some record)
    (sourced : ∀ next ∈ found, next.HasOwnSource) :
    Retains root
      (Crawl.accept { crawl with cache := after, history := history } record found) := by
  have earlier : ∀ uri ∈ crawl.history.loads, ∃ other,
      (crawl.result.insert record).get? uri = some other ∧ after.get? uri = some other := by
    intro uri member
    rcases retains.stored uri member with ⟨other, reached, cached⟩
    exact ⟨other, CrawlResult.get?_insert_of_get? new reached, kept uri other cached⟩
  refine
    { rooted := ?_
      stored := ?_
      sourced := ?_ }
  · rcases Option.isSome_iff_exists.mp retains.rooted with ⟨first, reached⟩
    exact Option.isSome_iff_exists.mpr ⟨first, CrawlResult.get?_insert_of_get? new reached⟩
  · intro uri member
    rcases loaded with same | ⟨more, stored⟩
    · exact earlier uri (same ▸ member)
    · rcases List.mem_append.mp (more ▸ member) with before | now
      · exact earlier uri before
      · rw [List.mem_singleton.mp now]
        exact ⟨record, CrawlResult.get?_insert_self new, stored⟩
  · intro next member
    rcases List.mem_append.mp member with waiting | new
    · exact retains.sourced next waiting
    · exact sourced next new

theorem LoadsOnce.step (once : LoadsOnce cache root crawl) (adds : world.OnlyAdds)
    (configuration : Configuration) : LoadsOnce cache root (crawl.step configuration world) := by
  have steps := @handles_step configuration world crawl adds once.named
    fun running => (once.retains running).sourced
  generalize crawl.step configuration world = later at steps ⊢
  rcases steps with rfl | ⟨pending, rest, running, queue, handles⟩
  · exact once
  · have retains := once.retains running
    have shorter : Retains root { crawl with queue := rest } :=
      { rooted := retains.rooted
        stored := retains.stored
        sourced := fun next member =>
          retains.sourced next (queue ▸ List.mem_cons_of_mem _ member) }
    cases handles with
    | known =>
        exact
          { fresh := once.fresh
            named := once.named
            keeps := once.keeps
            retains := fun _ => shorter }
    | @cached record new hit =>
        have own : record.uri = pending.uri := once.named pending.uri record hit
        exact
          { fresh := once.fresh
            named := once.named
            keeps := once.keeps
            retains := fun _ => shorter.accept (own ▸ new) (fun _ _ found => found) (.inl rfl)
              fun next member => Module.hasOwnSource_of_mem_pending member }
    | lost asked =>
        refine
          { fresh := ?_
            named := once.named
            keeps := once.keeps
            retains := by simp [fail] }
        rw [fail, asked]
        exact once.fresh
    -- A content is asked for from here on, of a module that is neither known nor cached.
    | broken new miss loaded =>
        refine
          { fresh := ?_
            named := adds.named _ _ once.named
            keeps := fun uri record found => adds.keeps _ _ uri record (once.keeps uri record found)
            retains := by simp [fail] }
        rw [fail, loaded]
        exact once.isFresh_append running new miss
    | @taken history after record found new miss loaded own gains sourced =>
        have kept : after.Keeps crawl.cache := fun uri record found =>
          gains.kept uri record (adds.keeps _ _ uri record found)
        refine
          { fresh := ?_
            named := gains.isNamed (adds.named _ _ once.named)
            keeps := fun uri record found => kept uri record (once.keeps uri record found)
            retains := fun _ => shorter.accept (own ▸ new) kept
              (.inr ⟨own ▸ loaded, gains.stored⟩) sourced }
        rw [Crawl.accept, loaded]
        exact once.isFresh_append running new miss

theorem LoadsOnce.run (once : LoadsOnce cache root crawl) (adds : world.OnlyAdds)
    (configuration : Configuration) (count : Nat) :
    LoadsOnce cache root (crawl.run configuration world count) := by
  induction count generalizing crawl with
  | zero => exact once
  | succ count induction => exact induction (once.step adds configuration)

/-! ## The beginning -/

theorem start_cache (world : World) (cache : ModuleCache) (root : ModuleRecord) :
    (start world cache root).cache = cache ∨
      cache.get? root.uri = none ∧
        (start world cache root).cache.Gains cache (expandedRoot world root) := by
  cases outcome : (Expansion.ofModule world root.module []).outcome with
  | error fault => exact .inl (by rw [start_of_error outcome])
  | ok found =>
      rw [start_of_ok outcome]
      cases held : cache.get? root.uri with
      | some kept =>
          have same : cache.get? (expandedRoot world root).uri = some kept := held
          exact .inl (by rw [ModuleCache.insertIfNew_of_get? same])
      | none => exact .inr ⟨rfl, ModuleCache.gains_insertIfNew held⟩

theorem start_loads (world : World) (cache : ModuleCache) (root : ModuleRecord) :
    (start world cache root).history.loads = [] := by
  have asked := Expansion.loads_history world root.module []
  cases outcome : (Expansion.ofModule world root.module []).outcome with
  | error fault =>
      rw [start_of_error outcome]
      exact asked
  | ok found =>
      rw [start_of_ok outcome]
      exact asked

theorem start_uris (world : World) (cache : ModuleCache) (root : ModuleRecord) :
    (start world cache root).result.uris = [root.uri] := by
  rw [start_result]
  rfl

theorem loadsOnce_start (named : cache.IsNamed) (world : World) (root : ModuleRecord) :
    LoadsOnce cache root.uri (start world cache root) := by
  have loads := start_loads world cache root
  refine
    { fresh := ?_
      named := ?_
      keeps := ?_
      retains := fun running => ?_ }
  · rw [loads]
    exact ⟨List.nodup_nil, List.not_mem_nil, by simp⟩
  · rcases start_cache world cache root with same | ⟨_, gains⟩
    · rw [same]
      exact named
    · exact gains.isNamed named
  · rcases start_cache world cache root with same | ⟨_, gains⟩
    · rw [same]
      exact fun _ _ found => found
    · exact gains.kept
  · refine
      { rooted := CrawlResult.contains_iff.mpr
          (start_uris world cache root ▸ List.mem_singleton_self _)
        stored := by simp [loads]
        sourced := ?_ }
    cases outcome : (Expansion.ofModule world root.module []).outcome with
    | error fault =>
        rw [start_of_error outcome] at running
        cases running
    | ok found =>
        rw [start_of_ok outcome]
        exact (Expansion.succeeds_of_ofModule_eq_ok outcome).hasOwnSource

/-! ## Over a cache that nobody else writes into -/

def IsMissing (cache : ModuleCache) (root uri : String) : Bool :=
  uri != root && !cache.contains uri

/-- What is missing was loaded when it was reached, and only what was reached has come to the
cache. -/
structure LoadsAll (cache : ModuleCache) (root : String) (crawl : Crawl) : Prop where
  exact : crawl.history.loads = crawl.result.uris.filter (IsMissing cache root)
  reached : ∀ uri, crawl.cache.contains uri = true →
    cache.contains uri = true ∨ uri ∈ crawl.result.uris

theorem loadsAll_start (world : World) (cache : ModuleCache) (root : ModuleRecord) :
    LoadsAll cache root.uri (start world cache root) where
  exact := by
    rw [start_loads, start_uris]
    simp [IsMissing]
  reached := by
    intro uri contained
    rcases start_cache world cache root with same | ⟨_, gains⟩
    · rw [same] at contained
      exact .inl contained
    · rcases gains.added uri contained with before | rfl
      · exact .inl before
      · exact .inr (start_uris world cache root ▸ List.mem_singleton_self _)

theorem LoadsAll.step (all : LoadsAll cache root crawl) (once : LoadsOnce cache root crawl)
    (calm : world.IsUndisturbed) (configuration : Configuration)
    (running : (crawl.step configuration world).failure = none) :
    LoadsAll cache root (crawl.step configuration world) := by
  have steps := @handles_step configuration world crawl calm.onlyAdds once.named
    fun running => (once.retains running).sourced
  generalize crawl.step configuration world = later at steps running ⊢
  rcases steps with rfl | ⟨pending, rest, unfailed, queue, handles⟩
  · exact all
  · cases handles with
    | known => exact ⟨all.exact, all.reached⟩
    | @cached record new hit =>
        have own : record.uri = pending.uri := once.named pending.uri record hit
        have uris : (crawl.result.insert record).uris = crawl.result.uris ++ [record.uri] :=
          CrawlResult.uris_insert (own ▸ new)
        -- What is cached but not yet reached was cached before.
        have before : cache.contains record.uri = true := by
          have contained : crawl.cache.contains record.uri = true := by
            rw [own, ModuleCache.contains, hit]
            rfl
          rcases all.reached record.uri contained with before | member
          · exact before
          · rw [own, ← CrawlResult.contains_iff, new] at member
            cases member
        refine ⟨?_, fun uri contained => ?_⟩
        · rw [Crawl.accept, uris, List.filter_append, ← all.exact]
          simp [IsMissing, before]
        · rw [Crawl.accept, uris]
          exact (all.reached uri contained).imp_right (List.mem_append_left _)
    | lost | broken => cases running
    | @taken history after record found new miss loaded own gains =>
        have uris : (crawl.result.insert record).uris = crawl.result.uris ++ [record.uri] :=
          CrawlResult.uris_insert (own ▸ new)
        have fresh := once.isFresh_append unfailed new miss
        have missing : IsMissing cache root pending.uri = true := by
          have uncached := fresh.uncached pending.uri (by simp)
          have rootless := fresh.rootless
          simp only [List.mem_append, List.mem_singleton, not_or] at rootless
          simp [IsMissing, uncached, Ne.symm rootless.2]
        refine ⟨?_, fun uri contained => ?_⟩
        · rw [Crawl.accept, uris, List.filter_append, ← all.exact, loaded, own]
          simp [missing]
        · rw [Crawl.accept, uris]
          rw [calm] at gains
          rcases gains.added uri contained with before | rfl
          · exact (all.reached uri before).imp_right (List.mem_append_left _)
          · exact .inr (List.mem_append_right _ (List.mem_cons_self ..))

theorem running_of_step (running : (crawl.step configuration world).failure = none) :
    crawl.failure = none := by
  rw [step] at running
  split at running
  · next unfailed _ => exact unfailed
  · exact running

theorem LoadsAll.run (all : crawl.failure = none → LoadsAll cache root crawl)
    (once : LoadsOnce cache root crawl) (calm : world.IsUndisturbed)
    (configuration : Configuration) (count : Nat)
    (running : (crawl.run configuration world count).failure = none) :
    LoadsAll cache root (crawl.run configuration world count) := by
  induction count generalizing crawl with
  | zero => exact all running
  | succ count induction =>
      refine induction (fun unfailed => ?_) (once.step calm.onlyAdds configuration) running
      exact (all (running_of_step unfailed)).step once calm configuration unfailed

/-- Every module is loaded once at most. Whatever the world answers, whoever else puts modules into
the cache, and however far the crawl comes, it loads no module twice, neither the root nor any that
was cached when it began. If it succeeds, every module that was loaded is cached with the record
that the result holds; and if nobody else has written into the cache, the modules that were loaded
are those of the result, in its order, apart from the root and from those that were cached. -/
theorem loads_once {world : World} (adds : world.OnlyAdds) {cache : ModuleCache}
    (named : cache.IsNamed) (configuration : Configuration) (root : ModuleRecord) (count : Nat) :
    let crawl := (start world cache root).run configuration world count
    crawl.history.loads.Nodup ∧ root.uri ∉ crawl.history.loads ∧
      (∀ uri ∈ crawl.history.loads, cache.contains uri = false) ∧
      ∀ result, crawl.outcome? = some (.ok result) →
        (∀ uri ∈ crawl.history.loads, ∃ record,
          result.get? uri = some record ∧ crawl.cache.get? uri = some record) ∧
        (world.IsUndisturbed → crawl.history.loads =
          result.uris.filter fun uri => uri != root.uri && !cache.contains uri) := by
  intro crawl
  have begins := loadsOnce_start named world root
  have once : LoadsOnce cache root.uri crawl := begins.run adds configuration count
  refine ⟨once.fresh.distinct, once.fresh.rootless, once.fresh.uncached, fun result finished => ?_⟩
  rcases eq_of_outcome?_eq_ok finished with ⟨running, _, rfl⟩
  refine ⟨(once.retains running).stored, fun calm => ?_⟩
  have all := LoadsAll.run (fun _ => loadsAll_start world cache root) begins calm configuration
    count running
  exact all.exact

/-! Two modules import a third one, which is cached. -/

def forkedSurroundings : Surroundings :=
  .ofTexts [("b", "from d import D"), ("c", "from d import D"), ("d", "")]

def forkedRoot : ModuleRecord :=
  ⟨(Module.ofText false "a" "from b import B\nfrom c import C").toOption.getD default, 1⟩

def forkedCache : ModuleCache :=
  ⟨[("d", ⟨(Module.ofText false "d" "").toOption.getD default, 0⟩)], 2⟩

theorem forkedCache_isNamed : forkedCache.IsNamed := by
  intro uri record found
  rcases List.lookup_eq_some_iff.mp found with ⟨front, back, entries, _⟩
  have member : (uri, record) ∈ forkedCache.entries := by simp [entries]
  cases List.mem_singleton.mp member
  cbv

theorem loads_once_forked :
    forkedSurroundings.world.OnlyAdds ∧ forkedCache.IsNamed ∧
      let crawl := (start forkedSurroundings.world forkedCache forkedRoot).run default
        forkedSurroundings.world 4
      crawl.history.loads.Nodup ∧ forkedRoot.uri ∉ crawl.history.loads ∧
        ∃ result, crawl.outcome? = some (.ok result) ∧ result.uris = ["a", "b", "c", "d"] ∧
          crawl.history.loads = result.uris.filter fun uri =>
            uri != forkedRoot.uri && !forkedCache.contains uri := by
  have adds := (forkedSurroundings.world_isUndisturbed).onlyAdds
  rcases loads_once adds forkedCache_isNamed default forkedRoot 4 with
    ⟨distinct, rootless, _, succeeds⟩
  have finished : ∃ result,
      ((start forkedSurroundings.world forkedCache forkedRoot).run default
        forkedSurroundings.world 4).outcome? = some (.ok result) ∧
      result.uris = ["a", "b", "c", "d"] := ⟨_, by cbv, by cbv⟩
  rcases finished with ⟨result, outcome, uris⟩
  exact ⟨adds, forkedCache_isNamed, distinct, rootless, result, outcome, uris,
    (succeeds result outcome).2 forkedSurroundings.world_isUndisturbed⟩

end Crawl

end ServiceModules
