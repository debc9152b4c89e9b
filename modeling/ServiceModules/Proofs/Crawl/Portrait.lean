import ServiceModules.Proofs.Crawl.Reachability

/-!
What a crawl with an empty cache makes of the modules that it reaches, in surroundings that do not
change. Every record is a module that is served, or the root, and each of its requests is bound to
the module that is found by its path, whatever the order in which the crawl came by them.
-/

namespace ServiceModules

namespace Surroundings

def leadsTo? (surroundings : Surroundings) (requester : String) (path : ImportPath) :
    Option String :=
  match surroundings.locate requester path with
  | .ok (.found source) => some source.uri
  | _ => none

/-- The module is one that a crawl from `root` meets, bound to what is found by its paths. -/
structure Portrays (surroundings : Surroundings) (configuration : Configuration)
    (root module : Module) : Prop where
  held : surroundings.Holds configuration root module.unbound
  settled : ∀ request ∈ module.table.imports, surroundings.Settles module.uri request

variable {surroundings : Surroundings} {configuration : Configuration} {root module : Module}

theorem leadsTo?_eq_some_iff {requester uri : String} {path : ImportPath} :
    surroundings.leadsTo? requester path = some uri ↔
      ∃ source, surroundings.Finds requester path source ∧ source.uri = uri := by
  simp only [leadsTo?, Finds]
  cases surroundings.locate requester path with
  | error fault => simp
  | ok lookup => cases lookup <;> simp

theorem Settles.target_eq {uri : String} {request : ImportRequest}
    (settles : surroundings.Settles uri request) :
    request.target = surroundings.leadsTo? uri request.path := by
  rcases settles with ⟨source, finds, bound⟩
  rw [bound, leadsTo?_eq_some_iff.mpr ⟨source, finds, rfl⟩]

theorem portrays_boundTo (held : surroundings.Holds configuration root module)
    (free : module.unbound = module) {found : List ModuleSource}
    (located : surroundings.sources module module.table.imports = .ok found) :
    surroundings.Portrays configuration root (module.boundTo found) where
  held := by
    have unbound : (module.boundTo found).unbound = module.unbound :=
      Module.unbound_withImports (bindAll_unbound (sources_eq_ok_iff.mp located))
    rw [unbound, free]
    exact held
  settled := by
    have finds := sources_eq_ok_iff.mp located
    exact settles_of_mem_bindAll finds

end Surroundings

namespace Tour

variable {surroundings : Surroundings} {configuration : Configuration} {root : Module}
  {tour : Tour}

theorem portrays_reach {module : Module}
    (portrays : ∀ reached ∈ tour.reached, surroundings.Portrays configuration root reached)
    (held : surroundings.Holds configuration root module) (free : module.unbound = module) :
    ∀ reached ∈ (tour.reach surroundings module).reached,
      surroundings.Portrays configuration root reached := by
  cases located : surroundings.sources module module.table.imports with
  | error fault =>
      rw [reach_of_unlocated located]
      exact portrays
  | ok found =>
      rw [reach_of_located located]
      intro reached member
      rcases List.mem_append.mp member with before | now
      · exact portrays reached before
      · rw [List.mem_singleton.mp now]
        exact Surroundings.portrays_boundTo held free located

theorem portrays_step (accounts : tour.Accounts surroundings configuration root)
    (portrays : ∀ reached ∈ tour.reached, surroundings.Portrays configuration root reached) :
    ∀ reached ∈ (tour.step surroundings configuration).reached,
      surroundings.Portrays configuration root reached := by
  by_cases running : tour.failure = none
  · cases queue : tour.waiting with
    | nil =>
        rw [step_of_finished fun _ _ _ => by simp [queue]]
        exact portrays
    | cons source rest =>
        have explores := accounts.1 running
        rcases @step_cases surroundings configuration tour running source rest queue with
          ⟨_, stepped⟩ | ⟨_, fault, _, stepped⟩ | ⟨new, module, loaded, stepped⟩
        · rw [stepped]
          exact portrays
        · rw [stepped]
          exact portrays
        · have serves := (explores.waiting source (queue ▸ List.mem_cons_self ..)).1
          have other : source.uri ≠ root.uri := fun same => new (same ▸ explores.rooted)
          rw [stepped]
          exact portrays_reach portrays (.served serves other loaded)
            (Surroundings.unbound_of_load_eq_ok loaded)
  · rw [step_of_finished fun _ _ unfailed => absurd unfailed running]
    exact portrays

theorem portrays_run (accounts : tour.Accounts surroundings configuration root)
    (portrays : ∀ reached ∈ tour.reached, surroundings.Portrays configuration root reached)
    (count : Nat) :
    ∀ reached ∈ (tour.run surroundings configuration count).reached,
      surroundings.Portrays configuration root reached := by
  induction count generalizing tour with
  | zero => exact portrays
  | succ count induction => exact induction accounts.step (portrays_step accounts portrays)

theorem portrays_start (free : root.unbound = root) :
    ∀ reached ∈ (start surroundings root).reached,
      surroundings.Portrays configuration root reached :=
  portrays_reach (by simp) .root free

end Tour

namespace CrawlResult

/-- The result holds what is reachable from the root and nothing else, each module with its
requests bound to what is found. -/
structure Portrays (surroundings : Surroundings) (configuration : Configuration) (root : Module)
    (result : CrawlResult) : Prop where
  distinct : result.uris.Nodup
  mem_uris_iff : ∀ uri, uri ∈ result.uris ↔ surroundings.Reachable configuration root uri
  portrayed : ∀ uri record, result.get? uri = some record →
    record.uri = uri ∧ surroundings.Portrays configuration root record.module

end CrawlResult

namespace Crawl

variable {surroundings : Surroundings} {configuration : Configuration} {root : ModuleRecord}
  {next : Nat}

theorem follows_tour (free : root.module.unbound = root.module) (next count : Nat) :
    Follows surroundings configuration
      ((start surroundings.world ⟨[], next⟩ root).run configuration surroundings.world count)
      ((Tour.start surroundings root.module).run surroundings configuration count) :=
  (follows_start (Surroundings.coherent_empty next)
    (Surroundings.confirms_of_unbound_eq_self free)).run count

theorem Follows.exists_outcome?_iff {crawl : Crawl} {tour : Tour}
    (follows : Follows surroundings configuration crawl tour) :
    (∃ result, crawl.outcome? = some (.ok result)) ↔
      ∃ reached, tour.outcome? = some (.ok reached) := by
  have verdict := follows.verdict?_eq
  rw [verdict?] at verdict
  generalize crawl.outcome? = crawlOutcome, tour.outcome? = tourOutcome at verdict ⊢
  rcases crawlOutcome with _ | _ | result <;> rcases tourOutcome with _ | _ | reached <;>
    simp_all [Except.map]

theorem portrays_of_outcome? (free : root.module.unbound = root.module) {count : Nat}
    {result : CrawlResult}
    (finished : ((start surroundings.world ⟨[], next⟩ root).run configuration surroundings.world
      count).outcome? = some (.ok result)) :
    result.Portrays surroundings configuration root.module := by
  have follows := @follows_tour surroundings configuration root free next count
  have accounts := (@Tour.accounts_start surroundings configuration root.module).run count
  rcases follows.exists_outcome?_iff.mp ⟨result, finished⟩ with ⟨reached, tourFinished⟩
  have begins := integrity_start (ModuleCache.isClean_empty next) surroundings.world root
  have integrity := (@Integrity.run configuration _ _ begins surroundings.world_isUndisturbed
    count).1
  rcases eq_of_outcome?_eq_ok finished with ⟨running, _, rfl⟩
  have abreast := follows.2 running
  refine
    { distinct := integrity.distinct
      mem_uris_iff := fun uri => ?_
      portrayed := fun uri record found => ?_ }
  · rw [abreast.uris_eq]
    exact (Tour.mem_uris_iff_of_outcome? accounts tourFinished).1 uri
  · have entry := CrawlResult.mem_entries_of_get? found
    have held : (uri, record.module) ∈ CrawlResult.modules _ :=
      List.mem_map.mpr ⟨_, entry, rfl⟩
    rw [abreast.reached] at held
    rcases List.mem_map.mp held with ⟨module, member, same⟩
    cases same
    exact ⟨rfl, Tour.portrays_run Tour.accounts_start (Tour.portrays_start free) count _ member⟩

/-- It succeeds in the end when finitely many modules are reachable and all of them are sound. -/
theorem exists_result_iff (free : root.module.unbound = root.module) (next : Nat) :
    (∃ count result, ((start surroundings.world ⟨[], next⟩ root).run configuration
        surroundings.world count).outcome? = some (.ok result)) ↔
      {uri | surroundings.Reachable configuration root.module uri}.Finite ∧
        ∀ uri, surroundings.Reachable configuration root.module uri →
          surroundings.IsSound configuration root.module uri := by
  constructor
  · rintro ⟨count, result, finished⟩
    have accounts := (@Tour.accounts_start surroundings configuration root.module).run count
    rcases (follows_tour free next count).exists_outcome?_iff.mp ⟨result, finished⟩ with
      ⟨reached, tourFinished⟩
    have complete := Tour.mem_uris_iff_of_outcome? accounts tourFinished
    refine ⟨?_, complete.2⟩
    exact (List.finite_toSet _).subset fun uri reachable => (complete.1 uri).mpr reachable
  · rintro ⟨finite, sound⟩
    rcases Tour.exists_outcome? finite (Tour.start surroundings root.module)
      Tour.accounts_start with ⟨count, outcome, tourFinished⟩
    have accounts := (@Tour.accounts_start surroundings configuration root.module).run count
    rcases (Tour.isSound_iff_of_outcome? accounts tourFinished).mpr sound with ⟨reached, rfl⟩
    exact ⟨count, (follows_tour free next count).exists_outcome?_iff.mpr ⟨reached, tourFinished⟩⟩

end Crawl

end ServiceModules
