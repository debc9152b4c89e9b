import Mathlib.Data.Set.Card
import ServiceModules.Proofs.Crawl.Integrity
import ServiceModules.Proofs.Crawl.Tour

/-!
What a crawl with an empty cache comes to in surroundings that do not change. It ends whenever only
finitely many modules can be reached, however these import each other. It succeeds exactly when
every reachable module can be read and all its imports lead somewhere, and then it has reached these
modules and no others.
-/

namespace ServiceModules

namespace Surroundings

variable (surroundings : Surroundings) (configuration : Configuration) (root : Module)

/-- The modules that a crawl meets: the root, and under any other identifier what is served. -/
inductive Holds : Module → Prop
  | root : Holds root
  | served {source : ModuleSource} {module : Module} (serves : surroundings.Serves source)
      (other : source.uri ≠ root.uri)
      (loaded : surroundings.load configuration source = .ok module) : Holds module

/-- The identifiers that the root leads to, its own among them. -/
inductive Reachable : String → Prop
  | root : Reachable root.uri
  | step {module : Module} {request : ImportRequest} {source : ModuleSource}
      (reachable : Reachable module.uri) (holds : surroundings.Holds configuration root module)
      (member : request ∈ module.table.imports)
      (finds : surroundings.Finds module.uri request.path source) : Reachable source.uri

/-- There is a module under this identifier, and every import of it is located. -/
def IsSound (uri : String) : Prop :=
  ∃ module, surroundings.Holds configuration root module ∧ module.uri = uri ∧
    ∀ request ∈ module.table.imports, ∃ source, surroundings.Finds uri request.path source

variable {surroundings configuration root}

theorem Holds.unique {module other : Module} (holds : surroundings.Holds configuration root module)
    (holdsOther : surroundings.Holds configuration root other) (same : module.uri = other.uri) :
    module = other := by
  cases holds with
  | root =>
      cases holdsOther with
      | root => rfl
      | served _ different loaded =>
          rw [uri_of_load_eq_ok loaded] at same
          exact absurd same.symm different
  | @served source _ serves different loaded =>
      cases holdsOther with
      | root =>
          rw [uri_of_load_eq_ok loaded] at same
          exact absurd same different
      | @served otherSource _ servesOther _ loadedOther =>
          rw [uri_of_load_eq_ok loaded, uri_of_load_eq_ok loadedOther] at same
          rw [load_eq_of_uri_eq serves servesOther same, loadedOther] at loaded
          cases loaded
          rfl

theorem exists_source_eq_error {importer : Module} {requests : List ImportRequest} {fault : Fault}
    (failed : surroundings.sources importer requests = .error fault) :
    ∃ request ∈ requests, surroundings.source importer request = .error fault := by
  induction requests with
  | nil => cases failed
  | cons request rest induction =>
      rcases sources_cons_eq_error failed with here | ⟨_, behind⟩
      · exact ⟨request, List.mem_cons_self .., here⟩
      · rcases induction behind with ⟨other, member, there⟩
        exact ⟨other, List.mem_cons_of_mem _ member, there⟩

theorem not_isSound_of_unlocated {module : Module} {fault : Fault}
    (holds : surroundings.Holds configuration root module)
    (failed : surroundings.sources module module.table.imports = .error fault) :
    ¬ surroundings.IsSound configuration root module.uri := by
  rintro ⟨other, holdsOther, same, located⟩
  cases holdsOther.unique holds same
  rcases exists_source_eq_error failed with ⟨request, member, missing⟩
  rcases located request member with ⟨source, finds⟩
  rw [source_eq_ok_iff.mpr finds] at missing
  cases missing

theorem not_isSound_of_unreadable {source : ModuleSource} {fault : Fault}
    (serves : surroundings.Serves source) (other : source.uri ≠ root.uri)
    (failed : surroundings.load configuration source = .error fault) :
    ¬ surroundings.IsSound configuration root source.uri := by
  rintro ⟨module, holds, same, _⟩
  cases holds with
  | root => exact other same.symm
  | @served otherSource _ servesOther _ loaded =>
      have sameSource : otherSource.uri = source.uri :=
        (uri_of_load_eq_ok loaded).symm.trans same
      rw [load_eq_of_uri_eq servesOther serves sameSource, failed] at loaded
      cases loaded

theorem finite_reachable_ofTexts (texts : List (String × String)) (configuration : Configuration)
    (root : Module) : {uri | (ofTexts texts).Reachable configuration root uri}.Finite := by
  apply Set.Finite.subset (List.finite_toSet (root.uri :: texts.map Prod.fst))
  intro uri reachable
  cases reachable with
  | root => exact List.mem_cons_self ..
  | @step _ _ source _ _ _ finds =>
      rcases ofTexts_serves ⟨_, _, finds⟩ with ⟨text, lookup, _⟩
      have found : (texts.lookup source.uri).isSome = true := by rw [lookup]; rfl
      rw [List.lookup_isSome_iff] at found
      rcases found with ⟨entry, member, equal⟩
      rw [beq_iff_eq.mp equal]
      exact List.mem_cons_of_mem _ (List.mem_map_of_mem member)

end Surroundings

namespace Tour

/-- What holds of a tour from `root` that has not failed, where `known` are the identifiers that it
has done with: it keeps to what is reachable, and every import of a module that it has reached is
known or waits. -/
structure Explores (surroundings : Surroundings) (configuration : Configuration) (root : Module)
    (tour : Tour) (known : List String) : Prop where
  rooted : root.uri ∈ known
  reached : ∀ uri ∈ tour.uris, surroundings.Reachable configuration root uri
  waiting : ∀ source ∈ tour.waiting,
    surroundings.Serves source ∧ surroundings.Reachable configuration root source.uri
  closed : ∀ uri ∈ tour.uris, ∃ module, surroundings.Holds configuration root module ∧
    module.uri = uri ∧ ∀ request ∈ module.table.imports,
      ∃ source, surroundings.Finds uri request.path source ∧
        (source.uri ∈ known ∨ source.uri ∈ tour.waiting.map ModuleSource.uri)

/-- A tour that has failed has met a module that is not sound. -/
def Accounts (surroundings : Surroundings) (configuration : Configuration) (root : Module)
    (tour : Tour) : Prop :=
  (tour.failure = none → tour.Explores surroundings configuration root tour.uris) ∧
    ∀ fault, tour.failure = some fault →
      ∃ uri, surroundings.Reachable configuration root uri ∧
        ¬ surroundings.IsSound configuration root uri

variable {surroundings : Surroundings} {configuration : Configuration} {root : Module}
  {tour : Tour}

theorem Accounts.of_fail {fault : Fault} {uri : String}
    (reachable : surroundings.Reachable configuration root uri)
    (unsound : ¬ surroundings.IsSound configuration root uri) :
    (tour.fail fault).Accounts surroundings configuration root := by
  constructor
  · intro unfailed
    cases unfailed
  · exact fun _ _ => ⟨uri, reachable, unsound⟩

theorem Explores.pop {source : ModuleSource} {rest : List ModuleSource}
    (explores : tour.Explores surroundings configuration root tour.uris)
    (queue : tour.waiting = source :: rest) :
    ({ tour with waiting := rest } : Tour).Explores surroundings configuration root
      (tour.uris ++ [source.uri]) where
  rooted := List.mem_append_left _ explores.rooted
  reached := explores.reached
  waiting := fun other member => explores.waiting other (queue ▸ List.mem_cons_of_mem _ member)
  closed := by
    intro uri member
    rcases explores.closed uri member with ⟨module, holds, same, located⟩
    refine ⟨module, holds, same, fun request requestMember => ?_⟩
    rcases located request requestMember with ⟨found, finds, known | waits⟩
    · exact ⟨found, finds, .inl (List.mem_append_left _ known)⟩
    · rw [queue, List.map_cons] at waits
      rcases List.mem_cons.mp waits with taken | waits
      · exact ⟨found, finds, .inl (List.mem_append_right _ (List.mem_singleton.mpr taken))⟩
      · exact ⟨found, finds, .inr waits⟩

theorem Explores.reach {module : Module} {found : List ModuleSource}
    (explores : tour.Explores surroundings configuration root (tour.uris ++ [module.uri]))
    (holds : surroundings.Holds configuration root module)
    (reachable : surroundings.Reachable configuration root module.uri)
    (finds : List.Forall₂ (fun request source => surroundings.Finds module.uri request.path source)
      module.table.imports found) :
    ({ tour with
        reached := tour.reached ++ [module.boundTo found]
        waiting := tour.waiting ++ found } : Tour).Explores surroundings configuration root
      (tour.uris ++ [module.uri]) where
  rooted := explores.rooted
  reached := by
    intro uri member
    rw [uris, List.map_append] at member
    rcases List.mem_append.mp member with member | member
    · exact explores.reached uri member
    · rw [List.mem_singleton.mp member]
      exact reachable
  waiting := by
    intro source member
    rcases List.mem_append.mp member with member | member
    · exact explores.waiting source member
    · rcases Surroundings.exists_mem_of_forall₂ finds source member with
        ⟨request, requestMember, findsHere⟩
      exact ⟨⟨_, _, findsHere⟩, .step reachable holds requestMember findsHere⟩
  closed := by
    intro uri member
    rw [uris, List.map_append] at member
    rw [List.map_append]
    rcases List.mem_append.mp member with member | member
    · rcases explores.closed uri member with ⟨other, holdsOther, same, located⟩
      refine ⟨other, holdsOther, same, fun request requestMember => ?_⟩
      rcases located request requestMember with ⟨source, findsOther, known | waits⟩
      · exact ⟨source, findsOther, .inl known⟩
      · exact ⟨source, findsOther, .inr (List.mem_append_left _ waits)⟩
    · rw [List.mem_singleton.mp member]
      refine ⟨module, holds, rfl, fun request requestMember => ?_⟩
      rcases Surroundings.exists_mem_of_forall₂ finds.flip request requestMember with
        ⟨source, sourceMember, findsHere⟩
      exact ⟨source, findsHere,
        .inr (List.mem_append_right _ (List.mem_map_of_mem sourceMember))⟩

theorem accounts_reach {module : Module} (running : tour.failure = none)
    (explores : tour.Explores surroundings configuration root (tour.uris ++ [module.uri]))
    (holds : surroundings.Holds configuration root module)
    (reachable : surroundings.Reachable configuration root module.uri) :
    (tour.reach surroundings module).Accounts surroundings configuration root := by
  cases located : surroundings.sources module module.table.imports with
  | error fault =>
      rw [reach_of_unlocated located]
      exact .of_fail reachable (Surroundings.not_isSound_of_unlocated holds located)
  | ok found =>
      have explored := explores.reach holds reachable (Surroundings.sources_eq_ok_iff.mp located)
      rw [reach_of_located located]
      have uris : uris { tour with
          reached := tour.reached ++ [module.boundTo found]
          waiting := tour.waiting ++ found } = tour.uris ++ [module.uri] := by
        rw [Tour.uris, Tour.uris, List.map_append]
        rfl
      refine ⟨fun _ => ?_, fun fault failed => ?_⟩
      · rw [uris]
        exact explored
      · rw [running] at failed
        cases failed

theorem step_cases (running : tour.failure = none) {source : ModuleSource}
    {rest : List ModuleSource} (queue : tour.waiting = source :: rest) :
    source.uri ∈ tour.uris ∧
        tour.step surroundings configuration = { tour with waiting := rest } ∨
      (source.uri ∉ tour.uris ∧ ∃ fault, surroundings.load configuration source = .error fault ∧
        tour.step surroundings configuration = fail { tour with waiting := rest } fault) ∨
      source.uri ∉ tour.uris ∧ ∃ module, surroundings.load configuration source = .ok module ∧
        tour.step surroundings configuration =
          reach surroundings { tour with waiting := rest } module := by
  have stepped : tour.step surroundings configuration =
      visit surroundings configuration { tour with waiting := rest } source := by
    rw [Tour.step, running, queue]
  rw [stepped]
  by_cases known : source.uri ∈ tour.uris
  · exact .inl ⟨known, visit_of_known known⟩
  · cases loaded : surroundings.load configuration source with
    | error fault => exact .inr (.inl ⟨known, fault, rfl, visit_of_unreadable known loaded⟩)
    | ok module => exact .inr (.inr ⟨known, module, rfl, visit_of_readable known loaded⟩)

theorem step_of_finished
    (finished : ∀ source rest, tour.failure = none → tour.waiting ≠ source :: rest) :
    tour.step surroundings configuration = tour := by
  rw [Tour.step]
  split
  · next source rest running queue => exact absurd queue (finished source rest running)
  · rfl

theorem Explores.skip {known : List String} {uri : String}
    (explores : tour.Explores surroundings configuration root (known ++ [uri]))
    (reached : uri ∈ known) : tour.Explores surroundings configuration root known := by
  have sameKnown : ∀ other, other ∈ known ++ [uri] → other ∈ known := by
    intro other member
    rcases List.mem_append.mp member with member | member
    · exact member
    · rw [List.mem_singleton.mp member]
      exact reached
  refine { explores with rooted := sameKnown _ explores.rooted, closed := ?_ }
  intro other member
  rcases explores.closed other member with ⟨module, holds, same, located⟩
  refine ⟨module, holds, same, fun request requestMember => ?_⟩
  rcases located request requestMember with ⟨found, finds, isKnown | waits⟩
  · exact ⟨found, finds, .inl (sameKnown _ isKnown)⟩
  · exact ⟨found, finds, .inr waits⟩

theorem Accounts.step (accounts : tour.Accounts surroundings configuration root) :
    (tour.step surroundings configuration).Accounts surroundings configuration root := by
  by_cases running : tour.failure = none
  · cases queue : tour.waiting with
    | nil =>
        rw [step_of_finished fun _ _ _ => by simp [queue]]
        exact accounts
    | cons source rest =>
        have explores := accounts.1 running
        rcases explores.waiting source (queue ▸ List.mem_cons_self ..) with ⟨serves, reachable⟩
        have popped := explores.pop queue
        have different : source.uri ∉ tour.uris → source.uri ≠ root.uri := by
          intro new same
          exact new (same ▸ explores.rooted)
        rcases @step_cases surroundings configuration tour running source rest queue with
          ⟨known, stepped⟩ | ⟨new, fault, failed, stepped⟩ | ⟨new, module, loaded, stepped⟩
        · rw [stepped]
          exact ⟨fun _ => popped.skip known, accounts.2⟩
        · rw [stepped]
          exact .of_fail reachable
            (Surroundings.not_isSound_of_unreadable serves (different new) failed)
        · rw [← Surroundings.uri_of_load_eq_ok loaded] at popped reachable
          rw [stepped]
          exact accounts_reach running popped (.served serves (different new) loaded) reachable
  · rw [step_of_finished fun _ _ unfailed => absurd unfailed running]
    exact accounts

theorem Accounts.run (accounts : tour.Accounts surroundings configuration root) (count : Nat) :
    (tour.run surroundings configuration count).Accounts surroundings configuration root := by
  induction count generalizing tour with
  | zero => exact accounts
  | succ count induction => exact induction accounts.step

theorem accounts_start : (start surroundings root).Accounts surroundings configuration root := by
  apply accounts_reach rfl _ .root .root
  exact
    { rooted := List.mem_singleton.mpr rfl
      reached := by simp [uris]
      waiting := by simp
      closed := by simp [uris] }

/-! ## The end of a tour -/

theorem mem_uris_iff_of_outcome? {reached : List Module}
    (accounts : tour.Accounts surroundings configuration root)
    (finished : tour.outcome? = some (.ok reached)) :
    (∀ uri, uri ∈ tour.uris ↔ surroundings.Reachable configuration root uri) ∧
      ∀ uri, surroundings.Reachable configuration root uri →
        surroundings.IsSound configuration root uri := by
  have ended : tour.failure = none ∧ tour.waiting = [] := by
    rw [outcome?] at finished
    split at finished
    · cases finished
    · next running nothing => exact ⟨running, nothing⟩
    · cases finished
  rcases ended with ⟨running, nothing⟩
  have explores := accounts.1 running
  have complete : ∀ uri, surroundings.Reachable configuration root uri → uri ∈ tour.uris := by
    intro uri reachable
    induction reachable with
    | root => exact explores.rooted
    | @step module request source _ holds member finds induction =>
        rcases explores.closed module.uri induction with ⟨other, holdsOther, same, located⟩
        cases holdsOther.unique holds same
        rcases located request member with ⟨found, findsFound, known | waits⟩
        · rw [finds.unique findsFound]
          exact known
        · rw [nothing] at waits
          cases waits
  refine ⟨fun uri => ⟨explores.reached uri, complete uri⟩, fun uri reachable => ?_⟩
  rcases explores.closed uri (complete uri reachable) with ⟨module, holds, same, located⟩
  refine ⟨module, holds, same, fun request member => ?_⟩
  rcases located request member with ⟨source, finds, _⟩
  exact ⟨source, finds⟩

def unreached (surroundings : Surroundings) (configuration : Configuration) (root : Module)
    (tour : Tour) : Set String :=
  {uri | surroundings.Reachable configuration root uri ∧ uri ∉ tour.uris}

/-- A step either reaches one more module, or fewer sources wait after it. -/
theorem step_descends (finite : {uri | surroundings.Reachable configuration root uri}.Finite)
    (accounts : tour.Accounts surroundings configuration root) (running : tour.failure = none)
    {source : ModuleSource} {rest : List ModuleSource} (queue : tour.waiting = source :: rest) :
    Prod.Lex (· < ·) (· < ·)
      ((unreached surroundings configuration root (tour.step surroundings configuration)).ncard,
        (tour.step surroundings configuration).waiting.length)
      ((unreached surroundings configuration root tour).ncard, tour.waiting.length) := by
  have shorter : rest.length < tour.waiting.length := by
    rw [queue]
    exact Nat.lt_succ_self _
  rcases @step_cases surroundings configuration tour running source rest queue with
    ⟨_, stepped⟩ | ⟨_, fault, _, stepped⟩ | ⟨new, module, loaded, stepped⟩
  · rw [stepped]
    exact .right _ shorter
  · rw [stepped]
    exact .right _ shorter
  · rw [stepped]
    cases located : surroundings.sources module module.table.imports with
    | error fault =>
        rw [reach_of_unlocated located]
        exact .right _ shorter
    | ok found =>
        have ownUri := Surroundings.uri_of_load_eq_ok loaded
        have waiting := (accounts.1 running).waiting source (queue ▸ List.mem_cons_self ..)
        rw [reach_of_located located]
        -- The module that is reached is taken from those that are yet to be reached.
        apply Prod.Lex.left
        apply Set.ncard_lt_ncard
        · constructor
          · rintro uri ⟨reachable, missing⟩
            refine ⟨reachable, fun member => missing ?_⟩
            rw [uris, List.map_append]
            exact List.mem_append_left _ member
          · intro within
            refine (within ⟨waiting.2, new⟩).2 ?_
            rw [uris, List.map_append, ← ownUri]
            exact List.mem_append_right _ (List.mem_cons_self ..)
        · exact finite.subset fun uri member => member.1

/-- Every tour ends: the measure is the number of modules to be reached, then that of the sources
that wait. -/
theorem exists_outcome? (finite : {uri | surroundings.Reachable configuration root uri}.Finite)
    (tour : Tour) (accounts : tour.Accounts surroundings configuration root) :
    ∃ count outcome, (tour.run surroundings configuration count).outcome? = some outcome := by
  cases running : tour.failure with
  | some fault => exact ⟨0, .error fault, by rw [Tour.run, outcome?, running]⟩
  | none =>
      cases queue : tour.waiting with
      | nil => exact ⟨0, .ok tour.reached, by rw [Tour.run, outcome?, running, queue]⟩
      | cons source rest =>
          rcases exists_outcome? finite (tour.step surroundings configuration) accounts.step with
            ⟨count, outcome, finished⟩
          exact ⟨count + 1, outcome, finished⟩
termination_by ((unreached surroundings configuration root tour).ncard, tour.waiting.length)
decreasing_by exact step_descends finite accounts running queue

/-- A tour ends in success exactly when everything that is reachable is sound. -/
theorem isSound_iff_of_outcome? {outcome : Except Fault (List Module)}
    (accounts : tour.Accounts surroundings configuration root)
    (finished : tour.outcome? = some outcome) :
    (∃ reached, outcome = .ok reached) ↔
      ∀ uri, surroundings.Reachable configuration root uri →
        surroundings.IsSound configuration root uri := by
  cases outcome with
  | ok reached =>
      constructor
      · exact fun _ => (mem_uris_iff_of_outcome? accounts finished).2
      · exact fun _ => ⟨reached, rfl⟩
  | error fault =>
      constructor
      · rintro ⟨reached, impossible⟩
        cases impossible
      · intro sound
        rw [outcome?] at finished
        split at finished
        · next failed =>
          rcases accounts.2 _ failed with ⟨uri, reachable, unsound⟩
          exact absurd (sound uri reachable) unsound
        · cases finished
        · cases finished

end Tour

namespace CrawlResult

/-- The result holds every reachable module once and nothing else, the root as it was given and
expanded, and every record in it is bound to others in it. -/
structure Covers (surroundings : Surroundings) (configuration : Configuration)
    (root : ModuleRecord) (result : CrawlResult) : Prop where
  distinct : result.uris.Nodup
  mem_uris_iff : ∀ uri,
    uri ∈ result.uris ↔ surroundings.Reachable configuration root.module uri
  rooted : result.get? root.uri = some (Crawl.expandedRoot surroundings.world root)
  named : ∀ uri record, result.get? uri = some record → record.uri = uri
  resolved : ∀ uri record, result.get? uri = some record →
    record.module.table.isFullyResolved = true
  closed : ∀ uri record, result.get? uri = some record →
    ∀ request ∈ record.module.table.imports, ∀ target, request.target = some target →
      target ∈ result.uris

end CrawlResult

namespace Crawl

variable {surroundings : Surroundings} {configuration : Configuration} {crawl : Crawl}
  {root : ModuleRecord}

theorem covers_of_follows {tour : Tour} {result : CrawlResult}
    (follows : Follows surroundings configuration crawl tour)
    (accounts : tour.Accounts surroundings configuration root.module)
    (integrity : Integrity crawl)
    (rooted : (root.uri, expandedRoot surroundings.world root) ∈ crawl.result.entries)
    {reached : List Module} (tourFinished : tour.outcome? = some (.ok reached))
    (finished : crawl.outcome? = some (.ok result)) :
    result.Covers surroundings configuration root := by
  have closed := integrity.closed_of_outcome? finished
  rcases eq_of_outcome?_eq_ok finished with ⟨running, nothing, rfl⟩
  have entry := fun uri record (found : crawl.result.get? uri = some record) =>
    CrawlResult.mem_entries_of_get? found
  exact
    { distinct := integrity.distinct
      mem_uris_iff := by
        intro uri
        rw [(follows.2 running).uris_eq]
        exact (Tour.mem_uris_iff_of_outcome? accounts tourFinished).1 uri
      rooted := CrawlResult.get?_of_mem_entries integrity.distinct rooted
      named := fun uri record found => integrity.named uri record (entry uri record found)
      resolved := fun uri record found =>
        (integrity.proceeds running).resolved uri record (entry uri record found)
      closed := closed }

/-- From a root with unresolved imports and with an empty cache, a crawl ends if only finitely many
modules are reachable. It succeeds exactly when every reachable module is there and all its imports
are located, and then its result covers what is reachable. -/
theorem exists_outcome?_of_finite
    (free : ∀ request ∈ root.module.table.imports, request.target = none)
    (finite : {uri | surroundings.Reachable configuration root.module uri}.Finite) (next : Nat) :
    ∃ count outcome,
      ((start surroundings.world ⟨[], next⟩ root).run configuration surroundings.world
        count).outcome? = some outcome ∧
      ((∃ result, outcome = .ok result) ↔
        ∀ uri, surroundings.Reachable configuration root.module uri →
          surroundings.IsSound configuration root.module uri) ∧
      ∀ result, outcome = .ok result → result.Covers surroundings configuration root := by
  have confirms : surroundings.Confirms root.module :=
    Surroundings.confirms_of_unbound_eq_self (Module.unbound_eq_self free)
  -- The tour from the root has no cache, so that its end is clear; the crawl follows it.
  have starts := follows_start (@Surroundings.coherent_empty surroundings configuration next)
    confirms
  rcases Tour.exists_outcome? finite (Tour.start surroundings root.module) Tour.accounts_start with
    ⟨count, tourOutcome, tourFinished⟩
  have follows := starts.run count
  have accounts := (@Tour.accounts_start surroundings configuration root.module).run count
  have begins := integrity_start (ModuleCache.isClean_empty next) surroundings.world root
  rcases @Integrity.run configuration _ _ begins surroundings.world_isUndisturbed count with
    ⟨integrity, kept⟩
  have rooted := kept (root.uri, expandedRoot surroundings.world root) (by
    rw [start_result]
    exact List.mem_cons_self ..)
  have verdict := follows.verdict?_eq
  rw [tourFinished, verdict?] at verdict
  rcases Option.map_eq_some_iff.mp verdict with ⟨outcome, finished, same⟩
  refine ⟨count, outcome, finished, ?_, ?_⟩
  · rw [← Tour.isSound_iff_of_outcome? accounts tourFinished]
    cases tourOutcome <;> cases outcome <;> simp_all [Except.map]
  · rintro result rfl
    cases tourOutcome with
    | error fault => cases same
    | ok reached => exact covers_of_follows follows accounts integrity rooted tourFinished finished

/-! The root imports itself, and the modules that it imports import each other. -/

def ring : Surroundings :=
  .ofTexts [("a", "type A: int"), ("b", "from a import A\nfrom c import C\ntype B: A"),
    ("c", "from b import B\ntype C: B")]

def ringText : String := "from a import A\nfrom b import B\nfrom c import C\ntype A: int"

def ringRoot : ModuleRecord := ⟨(Module.ofText false "a" ringText).toOption.getD default, 0⟩

theorem ringRoot_free : ∀ request ∈ ringRoot.module.table.imports, request.target = none := by
  have read : ringRoot.module.unbound = ringRoot.module := by cbv
  intro request member
  rw [← read] at member
  rcases List.mem_map.mp member with ⟨_, _, rfl⟩
  rfl

theorem exists_outcome?_of_finite_ring :
    (∀ request ∈ ringRoot.module.table.imports, request.target = none) ∧
      {uri | ring.Reachable default ringRoot.module uri}.Finite ∧
      ∃ count outcome,
        ((start ring.world ⟨[], 1⟩ ringRoot).run default ring.world count).outcome?
          = some outcome ∧
        ((∃ result, outcome = .ok result) ↔
          ∀ uri, ring.Reachable default ringRoot.module uri →
            ring.IsSound default ringRoot.module uri) ∧
        ∀ result, outcome = .ok result → result.Covers ring default ringRoot :=
  have finite := Surroundings.finite_reachable_ofTexts _ _ _
  ⟨ringRoot_free, finite, exists_outcome?_of_finite ringRoot_free finite 1⟩

end Crawl

end ServiceModules
