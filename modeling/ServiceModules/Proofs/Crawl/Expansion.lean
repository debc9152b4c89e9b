import ServiceModules.Crawl.Expansion
import ServiceModules.Proofs.Module.Unbound

/-!
What an expansion does in any world. It changes nothing but targets; when it succeeds, every request
is resolved and the pending modules are what the requests are bound to, in their order; and it
leaves a module alone whose requests are all resolved already.
-/

namespace ServiceModules

namespace Pending

def HasOwnSource (pending : Pending) : Prop :=
  ∀ source, pending.source = some source → source.uri = pending.uri

end Pending

namespace Module

theorem pending_map_uri (module : Module) :
    module.pending.map Pending.uri = module.dependencies := by
  have drop : ∀ request : ImportRequest,
      ((request.target.map fun target => (⟨target, module, request, none⟩ : Pending)).map
        Pending.uri) = request.target := by
    intro request
    cases request.target <;> rfl
  rw [pending, dependencies, SymbolTable.dependencies, List.map_filterMap]
  simp only [drop]

theorem mem_pending {module : Module} {pending : Pending} (member : pending ∈ module.pending) :
    pending.request ∈ module.table.imports ∧ pending.request.target = some pending.uri ∧
      pending.importer = module ∧ pending.source = none := by
  rcases List.mem_filterMap.mp member with ⟨request, requestMember, made⟩
  rcases Option.map_eq_some_iff.mp made with ⟨target, bound, rfl⟩
  exact ⟨requestMember, bound, rfl, rfl⟩

theorem hasOwnSource_of_mem_pending {module : Module} {pending : Pending}
    (member : pending ∈ module.pending) : pending.HasOwnSource := by
  intro source held
  rw [(mem_pending member).2.2.2] at held
  cases held

end Module

namespace Expansion

@[simp] theorem prepend_outcome (request : ImportRequest) (pending : Pending)
    (expansion : Expansion) :
    (expansion.prepend request pending).outcome = expansion.outcome.map (pending :: ·) := rfl

@[simp] theorem prepend_requests (request : ImportRequest) (pending : Pending)
    (expansion : Expansion) :
    (expansion.prepend request pending).requests = request :: expansion.requests := rfl

theorem prepend_outcome_eq_ok {request : ImportRequest} {pending : Pending}
    {expansion : Expansion} {found : List Pending}
    (succeeded : (expansion.prepend request pending).outcome = .ok found) :
    ∃ rest, expansion.outcome = .ok rest ∧ found = pending :: rest := by
  rw [prepend_outcome] at succeeded
  cases outcome : expansion.outcome with
  | error fault =>
      rw [outcome] at succeeded
      cases succeeded
  | ok rest =>
      rw [outcome] at succeeded
      cases succeeded
      exact ⟨rest, rfl, rfl⟩

variable {world : World} {module : Module} {history : History}

/-! The three things that can happen to the first request. -/

theorem ofRequests_cons_bound {request : ImportRequest} {rest : List ImportRequest}
    {target : String} (bound : request.target = some target) :
    ofRequests world module history (request :: rest) =
      (ofRequests world module history rest).prepend request
        ⟨target, module, request, none⟩ := by
  rw [ofRequests, bound]

theorem ofRequests_cons_error {request : ImportRequest} {rest : List ImportRequest}
    {fault : Fault} (free : request.target = none)
    (failed : world.source history module request = .error fault) :
    ofRequests world module history (request :: rest) =
      ⟨.error fault, request :: rest, history ++ [.lookup module.uri request.path]⟩ := by
  rw [ofRequests, free]
  simp only [failed]

theorem ofRequests_cons_ok {request : ImportRequest} {rest : List ImportRequest}
    {source : ModuleSource} (free : request.target = none)
    (located : world.source history module request = .ok source) :
    ofRequests world module history (request :: rest) =
      (ofRequests world module (history ++ [.lookup module.uri request.path]) rest).prepend
        (request.bind source.uri)
        ⟨source.uri, module, request.bind source.uri, some source⟩ := by
  rw [ofRequests, free]
  simp only [located]

theorem ofRequests_unbound (requests : List ImportRequest) :
    (ofRequests world module history requests).requests.map ImportRequest.unbound =
      requests.map ImportRequest.unbound := by
  induction requests generalizing history with
  | nil => rfl
  | cons request rest induction =>
      cases bound : request.target with
      | some target =>
          rw [ofRequests_cons_bound bound, prepend_requests, List.map_cons, induction,
            List.map_cons]
      | none =>
          cases located : world.source history module request with
          | error fault => rw [ofRequests_cons_error bound located]
          | ok source =>
              rw [ofRequests_cons_ok bound located, prepend_requests, List.map_cons, induction,
                List.map_cons, ImportRequest.unbound_bind]

/-- How an expansion succeeds, request by request: the requests before and after, and the pending
modules that they lead to. -/
inductive Succeeds (world : World) (module : Module) :
    History → List ImportRequest → List ImportRequest → List Pending → Prop
  | none {history : History} : Succeeds world module history [] [] []
  | bound {history : History} {request : ImportRequest} {target : String}
      {rest restAfter : List ImportRequest} {found : List Pending}
      (bound : request.target = some target)
      (succeeds : Succeeds world module history rest restAfter found) :
      Succeeds world module history (request :: rest) (request :: restAfter)
        (⟨target, module, request, none⟩ :: found)
  | located {history : History} {request : ImportRequest} {source : ModuleSource}
      {rest restAfter : List ImportRequest} {found : List Pending}
      (free : request.target = none)
      (located : world.source history module request = .ok source)
      (succeeds : Succeeds world module (history ++ [.lookup module.uri request.path]) rest
        restAfter found) :
      Succeeds world module history (request :: rest) (request.bind source.uri :: restAfter)
        (⟨source.uri, module, request.bind source.uri, some source⟩ :: found)

theorem succeeds_of_ofRequests_eq_ok {requests : List ImportRequest} {found : List Pending}
    (succeeded : (ofRequests world module history requests).outcome = .ok found) :
    Succeeds world module history requests
      (ofRequests world module history requests).requests found := by
  induction requests generalizing history found with
  | nil =>
      cases succeeded
      exact .none
  | cons request rest induction =>
      cases bound : request.target with
      | some target =>
          rw [ofRequests_cons_bound bound] at succeeded ⊢
          rcases prepend_outcome_eq_ok succeeded with ⟨foundRest, restSucceeded, rfl⟩
          exact .bound bound (induction restSucceeded)
      | none =>
          cases located : world.source history module request with
          | error fault =>
              rw [ofRequests_cons_error bound located] at succeeded
              cases succeeded
          | ok source =>
              rw [ofRequests_cons_ok bound located] at succeeded ⊢
              rcases prepend_outcome_eq_ok succeeded with ⟨foundRest, restSucceeded, rfl⟩
              exact .located bound located (induction restSucceeded)

variable {before after : List ImportRequest} {found : List Pending}

theorem Succeeds.isResolved (succeeds : Succeeds world module history before after found) :
    ∀ request ∈ after, request.isResolved = true := by
  induction succeeds with
  | none =>
      intro request member
      cases member
  | bound bound _ induction =>
      intro request member
      rcases List.mem_cons.mp member with rfl | member
      · rw [ImportRequest.isResolved, bound]
        rfl
      · exact induction request member
  | located _ _ _ induction =>
      intro request member
      rcases List.mem_cons.mp member with rfl | member
      · rfl
      · exact induction request member

theorem Succeeds.map_uri (succeeds : Succeeds world module history before after found) :
    found.map Pending.uri = after.filterMap ImportRequest.target := by
  induction succeeds with
  | none => rfl
  | bound bound _ induction =>
      rw [List.map_cons, List.filterMap_cons_some bound, induction]
  | @located _ request source _ _ _ _ _ _ induction =>
      rw [List.map_cons, List.filterMap_cons_some (request.bind_target source.uri), induction]

theorem Succeeds.hasOwnSource (succeeds : Succeeds world module history before after found) :
    ∀ pending ∈ found, pending.HasOwnSource := by
  induction succeeds with
  | none =>
      intro pending member
      cases member
  | bound _ _ induction =>
      intro pending member
      rcases List.mem_cons.mp member with rfl | member
      · intro source held
        cases held
      · exact induction pending member
  | located _ _ _ induction =>
      intro pending member
      rcases List.mem_cons.mp member with rfl | member
      · intro source held
        cases held
        rfl
      · exact induction pending member

theorem ofRequests_of_isResolved {requests : List ImportRequest}
    (resolved : ∀ request ∈ requests, request.isResolved = true) :
    ofRequests world module history requests =
      ⟨.ok (requests.filterMap fun request =>
        request.target.map fun target => ⟨target, module, request, none⟩), requests, history⟩ := by
  induction requests with
  | nil => rfl
  | cons request rest induction =>
      have head := resolved request (List.mem_cons_self ..)
      rcases Option.isSome_iff_exists.mp head with ⟨target, bound⟩
      have tail := induction fun other member => resolved other (List.mem_cons_of_mem _ member)
      rw [ofRequests_cons_bound bound, tail]
      simp [prepend, bound, Except.map]

/-! The same of a whole module. -/

theorem expanded_unbound (world : World) (module : Module) (history : History) :
    ((ofModule world module history).expanded module).unbound = module.unbound :=
  Module.unbound_withImports (ofRequests_unbound module.table.imports)

theorem succeeds_of_ofModule_eq_ok
    (succeeded : (ofModule world module history).outcome = .ok found) :
    Succeeds world module history module.table.imports
      (ofModule world module history).requests found :=
  succeeds_of_ofRequests_eq_ok succeeded

theorem isFullyResolved_of_ofModule_eq_ok
    (succeeded : (ofModule world module history).outcome = .ok found) :
    ((ofModule world module history).expanded module).table.isFullyResolved = true :=
  List.all_eq_true.mpr (succeeds_of_ofModule_eq_ok succeeded).isResolved

theorem map_uri_of_ofModule_eq_ok
    (succeeded : (ofModule world module history).outcome = .ok found) :
    found.map Pending.uri =
      ((ofModule world module history).expanded module).dependencies :=
  (succeeds_of_ofModule_eq_ok succeeded).map_uri

theorem ofModule_of_isFullyResolved (resolved : module.table.isFullyResolved = true) :
    ofModule world module history = ⟨.ok module.pending, module.table.imports, history⟩ :=
  ofRequests_of_isResolved (List.all_eq_true.mp resolved)

end Expansion

end ServiceModules
