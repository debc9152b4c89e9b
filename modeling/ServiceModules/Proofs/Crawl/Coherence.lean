import ServiceModules.Proofs.Crawl.Surroundings

/-!
Coherent caches. A record is current when it is what the surroundings serve under its identifier,
with every import bound to the module that is found by its path. A cache is coherent when all its
records are current.
-/

namespace ServiceModules

namespace Module

def boundTo (module : Module) (found : List ModuleSource) : Module :=
  module.withImports (ImportRequest.bindAll module.table.imports found)

end Module

namespace Surroundings

variable (surroundings : Surroundings) (configuration : Configuration)

/-- If the surroundings serve anything under the identifier of the module, it is read as this
module before it was bound. -/
def Vouches (module : Module) : Prop :=
  ∀ source, surroundings.Serves source → source.uri = module.uri →
    surroundings.load configuration source = .ok module.unbound

/-- The request of the module `uri` is bound to the module that is found by its path. -/
def Settles (uri : String) (request : ImportRequest) : Prop :=
  ∃ source, surroundings.Finds uri request.path source ∧ request.target = some source.uri

/-- If the surroundings serve anything under the identifier of the module, it is read as this
module before it was bound, and all its requests are bound to what is found. -/
def IsCurrent (module : Module) : Prop :=
  ∀ source, surroundings.Serves source → source.uri = module.uri →
    surroundings.load configuration source = .ok module.unbound ∧
      ∀ request ∈ module.table.imports, surroundings.Settles module.uri request

/-- Every entry is stored under its own identifier, and its record is current. -/
def Coherent (cache : ModuleCache) : Prop :=
  ∀ uri record, (uri, record) ∈ cache.entries →
    record.uri = uri ∧ surroundings.IsCurrent configuration record.module

variable {surroundings configuration}

theorem coherent_empty (next : Nat) : surroundings.Coherent configuration ⟨[], next⟩ := by
  intro uri record member
  cases member

theorem confirms_of_settles {uri : String} {request : ImportRequest}
    (settles : surroundings.Settles uri request) :
    surroundings.ConfirmsRequest uri request := by
  rcases settles with ⟨source, finds, bound⟩
  intro target boundTarget
  rw [bound] at boundTarget
  cases boundTarget
  exact ⟨source, finds, rfl⟩

/-! Requests that are settled and requests that are bound to what is found are the same. -/

theorem exists_sources_of_settles {uri : String} {requests : List ImportRequest}
    (settles : ∀ request ∈ requests, surroundings.Settles uri request) :
    ∃ found, List.Forall₂ (fun request source => surroundings.Finds uri request.path source)
        (requests.map ImportRequest.unbound) found ∧
      ImportRequest.bindAll (requests.map ImportRequest.unbound) found = requests ∧
      found.map ModuleSource.uri = requests.filterMap ImportRequest.target := by
  induction requests with
  | nil => exact ⟨[], .nil, rfl, rfl⟩
  | cons request rest induction =>
      rcases settles request (List.mem_cons_self ..) with ⟨source, finds, bound⟩
      rcases induction fun other member => settles other (List.mem_cons_of_mem _ member) with
        ⟨found, findsRest, boundRest, urisRest⟩
      refine ⟨source :: found, .cons finds findsRest, ?_, ?_⟩
      · rw [List.map_cons, ImportRequest.bindAll_cons, boundRest, ImportRequest.bind_unbound,
          ImportRequest.bind_of_target_eq_some bound]
      · rw [List.map_cons, List.filterMap_cons_some bound, urisRest]

theorem settles_of_mem_bindAll {uri : String} {requests : List ImportRequest}
    {found : List ModuleSource}
    (finds : List.Forall₂ (fun request source => surroundings.Finds uri request.path source)
      requests found) :
    ∀ request ∈ ImportRequest.bindAll requests found, surroundings.Settles uri request := by
  induction finds with
  | nil =>
      intro request member
      cases member
  | @cons request source rest foundRest finds _ induction =>
      intro other member
      rcases List.mem_cons.mp member with rfl | member
      · exact ⟨source, finds, rfl⟩
      · exact induction other member

theorem bindAll_unbound {uri : String} {requests : List ImportRequest}
    {found : List ModuleSource}
    (finds : List.Forall₂ (fun request source => surroundings.Finds uri request.path source)
      requests found) :
    (ImportRequest.bindAll requests found).map ImportRequest.unbound =
      requests.map ImportRequest.unbound := by
  induction finds with
  | nil => rfl
  | cons _ _ induction =>
      rw [ImportRequest.bindAll_cons, List.map_cons, List.map_cons, induction,
        ImportRequest.unbound_bind]

theorem vouches_of_load_eq_ok {source : ModuleSource} {module : Module}
    (serves : surroundings.Serves source)
    (loaded : surroundings.load configuration source = .ok module) :
    surroundings.Vouches configuration module := by
  intro other servesOther same
  have ownUri : module.uri = source.uri := uri_of_load_eq_ok loaded
  have sameSource : other.uri = source.uri := same.trans ownUri
  rw [load_eq_of_uri_eq servesOther serves sameSource, loaded, unbound_of_load_eq_ok loaded]

theorem isCurrent_boundTo {module : Module} {found : List ModuleSource}
    (vouches : surroundings.Vouches configuration module)
    (finds : List.Forall₂
      (fun request source => surroundings.Finds module.uri request.path source)
      module.table.imports found) :
    surroundings.IsCurrent configuration (module.boundTo found) := by
  intro source serves same
  have unbound : (module.boundTo found).unbound = module.unbound :=
    Module.unbound_withImports (bindAll_unbound finds)
  constructor
  · rw [unbound]
    exact vouches source serves same
  · exact settles_of_mem_bindAll finds

/-! What the expansion of a module comes to whose resolved requests are confirmed. -/

theorem ofModule_eq_error {module : Module} {history : History} {fault : Fault}
    (confirms : surroundings.Confirms module)
    (failed : surroundings.sources module module.table.imports = .error fault) :
    (Expansion.ofModule surroundings.world module history).outcome = .error fault :=
  ofRequests_eq_error confirms failed

theorem ofModule_eq_ok {module : Module} {history : History} {found : List ModuleSource}
    (confirms : surroundings.Confirms module)
    (located : surroundings.sources module module.table.imports = .ok found) :
    ∃ pending, (Expansion.ofModule surroundings.world module history).outcome = .ok pending ∧
      (Expansion.ofModule surroundings.world module history).expanded module
        = module.boundTo found ∧
      pending.map Pending.uri = found.map ModuleSource.uri ∧
      ∀ next ∈ pending, surroundings.Leads next := by
  rcases @ofRequests_eq_ok surroundings module _ history found confirms
      (sources_eq_ok_iff.mp located) with
    ⟨pending, outcome, bounds, uris, leads⟩
  refine ⟨pending, outcome, ?_, uris, leads⟩
  rw [Expansion.expanded, Expansion.ofModule, bounds, Module.boundTo]

theorem isCurrent_expanded {module : Module} {history : History} {pending : List Pending}
    (vouches : surroundings.Vouches configuration module)
    (confirms : surroundings.Confirms module)
    (succeeded : (Expansion.ofModule surroundings.world module history).outcome = .ok pending) :
    surroundings.IsCurrent configuration
      ((Expansion.ofModule surroundings.world module history).expanded module) := by
  cases located : surroundings.sources module module.table.imports with
  | error fault =>
      rw [ofModule_eq_error confirms located] at succeeded
      cases succeeded
  | ok found =>
      rcases @ofModule_eq_ok surroundings module history found confirms located with
        ⟨_, _, bounds, _⟩
      rw [bounds]
      exact isCurrent_boundTo vouches (sources_eq_ok_iff.mp located)

end Surroundings

end ServiceModules
