import Mathlib.Data.List.Forall2
import ServiceModules.Proofs.Crawl.Visit

/-!
Surroundings: a world that does not change. Every question has one answer, whatever was asked
before, nobody else writes into the cache, and no identifier is used for two contents.
-/

namespace ServiceModules

namespace ImportRequest

def bindAll (requests : List ImportRequest) (found : List ModuleSource) : List ImportRequest :=
  List.zipWith (fun request source => request.bind source.uri) requests found

theorem bindAll_cons (request : ImportRequest) (rest : List ImportRequest)
    (source : ModuleSource) (found : List ModuleSource) :
    bindAll (request :: rest) (source :: found) =
      request.bind source.uri :: bindAll rest found := rfl

end ImportRequest

structure Surroundings where
  locate : String → ImportPath → Except Fault Lookup
  read : ModuleSource → Except Fault Bytes
  /-- The file names near the places that were looked at. -/
  candidates : List String → List String
  /-- An identifier is canonical: it is never used for two distinct contents. -/
  read_eq_of_found : ∀ {requester requester' : String} {path path' : ImportPath}
    {source source' : ModuleSource}, locate requester path = .ok (.found source) →
    locate requester' path' = .ok (.found source') → source.uri = source'.uri →
    read source = read source'

namespace Surroundings

variable (surroundings : Surroundings) (configuration : Configuration)

def world : World where
  locate := fun _ => surroundings.locate
  read := fun _ => surroundings.read
  candidates := surroundings.candidates
  meanwhile := World.undisturbed

theorem world_isUndisturbed : surroundings.world.IsUndisturbed := rfl

def Finds (requester : String) (path : ImportPath) (source : ModuleSource) : Prop :=
  surroundings.locate requester path = .ok (.found source)

def Serves (source : ModuleSource) : Prop :=
  ∃ requester path, surroundings.Finds requester path source

def source (importer : Module) (request : ImportRequest) : Except Fault ModuleSource :=
  surroundings.world.source [] importer request

def load (source : ModuleSource) : Except Fault Module :=
  surroundings.world.load configuration [] source

/-- The sources that the given requests of a module lead to, or the fault of the first one that
leads nowhere. -/
def sources (importer : Module) : List ImportRequest → Except Fault (List ModuleSource)
  | [] => .ok []
  | request :: rest =>
    match surroundings.source importer request with
    | .error fault => .error fault
    | .ok source => (sources importer rest).map (source :: ·)

@[simp] theorem world_source (history : History) (importer : Module) (request : ImportRequest) :
    surroundings.world.source history importer request =
      surroundings.source importer request := rfl

variable {surroundings configuration}

theorem Finds.unique {requester : String} {path : ImportPath} {source other : ModuleSource}
    (finds : surroundings.Finds requester path source)
    (findsOther : surroundings.Finds requester path other) : source = other := by
  rw [Finds] at finds findsOther
  rw [finds] at findsOther
  cases findsOther
  rfl

theorem source_eq_ok_iff {importer : Module} {request : ImportRequest} {source : ModuleSource} :
    surroundings.source importer request = .ok source ↔
      surroundings.Finds importer.uri request.path source := by
  have asked : surroundings.world.locate [] importer.uri request.path =
      surroundings.locate importer.uri request.path := rfl
  rw [Surroundings.source, World.source, asked, Finds]
  cases surroundings.locate importer.uri request.path with
  | error fault => simp
  | ok lookup => cases lookup <;> simp

theorem load_eq_of_uri_eq {source other : ModuleSource} (serves : surroundings.Serves source)
    (servesOther : surroundings.Serves other) (same : source.uri = other.uri) :
    surroundings.load configuration source = surroundings.load configuration other := by
  rcases serves with ⟨requester, path, finds⟩
  rcases servesOther with ⟨requester', path', findsOther⟩
  have sameContent : surroundings.world.read [] source = surroundings.world.read [] other :=
    surroundings.read_eq_of_found finds findsOther same
  rw [Surroundings.load, Surroundings.load, World.load, World.load, sameContent, same]

theorem uri_of_load_eq_ok {source : ModuleSource} {module : Module}
    (loaded : surroundings.load configuration source = .ok module) : module.uri = source.uri :=
  World.uri_of_load_eq_ok loaded

theorem unbound_of_load_eq_ok {source : ModuleSource} {module : Module}
    (loaded : surroundings.load configuration source = .ok module) : module.unbound = module := by
  rw [Surroundings.load, World.load] at loaded
  split at loaded
  · cases loaded
  · exact Module.unbound_of_ofBytes_eq_ok loaded

/-! Requests that are bound to what is found. -/

/-- If the request of the module `uri` is resolved, it is bound to the module that is found by its
path. -/
def ConfirmsRequest (surroundings : Surroundings) (uri : String) (request : ImportRequest) :
    Prop :=
  ∀ target, request.target = some target →
    ∃ source, surroundings.Finds uri request.path source ∧ source.uri = target

def Confirms (surroundings : Surroundings) (module : Module) : Prop :=
  ∀ request ∈ module.table.imports, surroundings.ConfirmsRequest module.uri request

theorem confirms_of_unbound_eq_self {module : Module} (free : module.unbound = module) :
    surroundings.Confirms module := by
  intro request member target bound
  rw [← free] at member
  rcases List.mem_map.mp member with ⟨original, _, rfl⟩
  cases bound

theorem sources_cons_error {importer : Module} {request : ImportRequest}
    {rest : List ImportRequest} {fault : Fault}
    (failed : surroundings.source importer request = .error fault) :
    surroundings.sources importer (request :: rest) = .error fault := by
  rw [sources, failed]

theorem sources_cons_ok {importer : Module} {request : ImportRequest}
    {rest : List ImportRequest} {source : ModuleSource}
    (located : surroundings.source importer request = .ok source) :
    surroundings.sources importer (request :: rest) =
      (surroundings.sources importer rest).map (source :: ·) := by
  rw [sources, located]

theorem sources_cons_eq_error {importer : Module} {request : ImportRequest}
    {rest : List ImportRequest} {fault : Fault}
    (failed : surroundings.sources importer (request :: rest) = .error fault) :
    surroundings.source importer request = .error fault ∨
      (∃ source, surroundings.source importer request = .ok source) ∧
        surroundings.sources importer rest = .error fault := by
  cases located : surroundings.source importer request with
  | error other =>
      rw [sources_cons_error located] at failed
      cases failed
      exact .inl rfl
  | ok source =>
      rw [sources_cons_ok located] at failed
      cases outcome : surroundings.sources importer rest with
      | error other =>
          rw [outcome] at failed
          exact .inr ⟨⟨source, rfl⟩, failed⟩
      | ok found =>
          rw [outcome] at failed
          cases failed

theorem sources_cons_eq_ok {importer : Module} {request : ImportRequest}
    {rest : List ImportRequest} {found : List ModuleSource}
    (located : surroundings.sources importer (request :: rest) = .ok found) :
    ∃ source foundRest, surroundings.source importer request = .ok source ∧
      surroundings.sources importer rest = .ok foundRest ∧ found = source :: foundRest := by
  cases here : surroundings.source importer request with
  | error fault =>
      rw [sources_cons_error here] at located
      cases located
  | ok source =>
      rw [sources_cons_ok here] at located
      cases outcome : surroundings.sources importer rest with
      | error fault =>
          rw [outcome] at located
          cases located
      | ok foundRest =>
          rw [outcome] at located
          cases located
          exact ⟨source, foundRest, rfl, rfl, rfl⟩

theorem sources_eq_ok_iff {importer : Module} {requests : List ImportRequest}
    {found : List ModuleSource} :
    surroundings.sources importer requests = .ok found ↔
      List.Forall₂ (fun request source => surroundings.Finds importer.uri request.path source)
        requests found := by
  constructor
  · intro located
    induction requests generalizing found with
    | nil =>
        cases located
        exact .nil
    | cons request rest induction =>
        rcases sources_cons_eq_ok located with ⟨source, foundRest, here, behind, rfl⟩
        exact .cons (source_eq_ok_iff.mp here) (induction behind)
  · intro finds
    induction finds with
    | nil => rfl
    | cons finds _ induction =>
        rw [sources_cons_ok (source_eq_ok_iff.mpr finds), induction]
        rfl

theorem exists_mem_of_forall₂ {α β : Type} {relation : α → β → Prop} {left : List α}
    {right : List β} (related : List.Forall₂ relation left right) :
    ∀ second ∈ right, ∃ first ∈ left, relation first second := by
  intro second member
  induction related with
  | nil => cases member
  | @cons first _ _ _ here _ induction =>
      rcases List.mem_cons.mp member with rfl | member
      · exact ⟨first, List.mem_cons_self .., here⟩
      · rcases induction member with ⟨other, otherMember, there⟩
        exact ⟨other, List.mem_cons_of_mem _ otherMember, there⟩

theorem serves_of_mem_sources {uri : String} {requests : List ImportRequest}
    {found : List ModuleSource}
    (finds : List.Forall₂ (fun request source => surroundings.Finds uri request.path source)
      requests found) :
    ∀ source ∈ found, surroundings.Serves source := by
  intro source member
  rcases exists_mem_of_forall₂ finds source member with ⟨request, _, findsHere⟩
  exact ⟨uri, request.path, findsHere⟩

/-- A pending module is where its importer finds it, and its source is the one that is found. -/
def Leads (surroundings : Surroundings) (pending : Pending) : Prop :=
  ∃ source, surroundings.Finds pending.importer.uri pending.request.path source ∧
    source.uri = pending.uri ∧ ∀ held, pending.source = some held → held = source

theorem Leads.hasOwnSource {pending : Pending} (leads : surroundings.Leads pending) :
    pending.HasOwnSource := by
  rcases leads with ⟨source, _, same, held⟩
  intro other heldOther
  rw [held other heldOther]
  exact same

theorem Leads.serves_of_sources {before history : History} {pending : Pending}
    {source : ModuleSource} (leads : surroundings.Leads pending)
    (sources : Crawl.Sources surroundings.world before pending history source) :
    surroundings.Serves source := by
  rcases leads with ⟨found, finds, _, held⟩
  cases sources with
  | held heldSource =>
      rw [held source heldSource]
      exact ⟨_, _, finds⟩
  | located _ located _ => exact ⟨_, _, source_eq_ok_iff.mp located⟩

theorem Leads.not_loses {before : History} {pending : Pending} {fault : Fault}
    (leads : surroundings.Leads pending) :
    ¬ Crawl.Loses surroundings.world before pending fault := by
  rcases leads with ⟨found, finds, same, _⟩
  intro loses
  have located := source_eq_ok_iff.mpr finds
  cases loses with
  | unlocated failed =>
      rw [world_source, located] at failed
      cases failed
  | moved locatedOther different =>
      rw [world_source, located] at locatedOther
      cases locatedOther
      exact different same

/-! What an expansion comes to, told by the sources of the requests. -/

variable {module : Module} {requests : List ImportRequest}

theorem ofRequests_eq_error {history : History} {fault : Fault}
    (confirms : ∀ request ∈ requests, surroundings.ConfirmsRequest module.uri request)
    (failed : surroundings.sources module requests = .error fault) :
    (Expansion.ofRequests surroundings.world module history requests).outcome
      = .error fault := by
  induction requests generalizing history with
  | nil => cases failed
  | cons request rest induction =>
      have confirmsRest := fun other member => confirms other (List.mem_cons_of_mem request member)
      cases bound : request.target with
      | some target =>
          -- A confirmed request is located, so that the fault comes from behind it.
          rcases confirms request (List.mem_cons_self ..) target bound with ⟨source, finds, _⟩
          rcases sources_cons_eq_error failed with failedHere | ⟨_, failedRest⟩
          · rw [source_eq_ok_iff.mpr finds] at failedHere
            cases failedHere
          · rw [Expansion.ofRequests_cons_bound bound, Expansion.prepend_outcome,
              induction confirmsRest failedRest]
            rfl
      | none =>
          rcases sources_cons_eq_error failed with failedHere | ⟨⟨source, located⟩, failedRest⟩
          · have asked : surroundings.world.source history module request = .error fault :=
              failedHere
            rw [Expansion.ofRequests_cons_error bound asked]
          · have asked : surroundings.world.source history module request = .ok source := located
            rw [Expansion.ofRequests_cons_ok bound asked, Expansion.prepend_outcome,
              induction confirmsRest failedRest]
            rfl

theorem ofRequests_eq_ok {history : History} {found : List ModuleSource}
    (confirms : ∀ request ∈ requests, surroundings.ConfirmsRequest module.uri request)
    (finds : List.Forall₂
      (fun request source => surroundings.Finds module.uri request.path source) requests found) :
    ∃ pending, (Expansion.ofRequests surroundings.world module history requests).outcome
        = .ok pending ∧
      (Expansion.ofRequests surroundings.world module history requests).requests
        = ImportRequest.bindAll requests found ∧
      pending.map Pending.uri = found.map ModuleSource.uri ∧
      ∀ next ∈ pending, surroundings.Leads next := by
  induction finds generalizing history with
  | nil => exact ⟨[], rfl, rfl, rfl, by simp⟩
  | @cons request source rest foundRest finds _ induction =>
      have confirmsRest := fun other member => confirms other (List.mem_cons_of_mem request member)
      cases bound : request.target with
      | some target =>
          -- What is bound is not asked for; that it is confirmed makes it the source that is found.
          rcases confirms request (List.mem_cons_self ..) target bound with
            ⟨other, findsOther, same⟩
          have sameTarget : source.uri = target := by rw [finds.unique findsOther, same]
          rcases @induction history confirmsRest with
            ⟨pending, outcome, bounds, uris, leads⟩
          rw [Expansion.ofRequests_cons_bound bound, Expansion.prepend_outcome,
            Expansion.prepend_requests, outcome, bounds]
          refine ⟨_, rfl, ?_, ?_, ?_⟩
          · rw [ImportRequest.bindAll_cons, sameTarget,
              ImportRequest.bind_of_target_eq_some bound]
          · rw [List.map_cons, List.map_cons, uris, sameTarget]
          · intro next member
            rcases List.mem_cons.mp member with rfl | member
            · exact ⟨source, finds, sameTarget, fun held heldSource => by cases heldSource⟩
            · exact leads next member
      | none =>
          have asked : surroundings.world.source history module request = .ok source :=
            source_eq_ok_iff.mpr finds
          rcases @induction (history ++ [.lookup module.uri request.path]) confirmsRest with
            ⟨pending, outcome, bounds, uris, leads⟩
          rw [Expansion.ofRequests_cons_ok bound asked, Expansion.prepend_outcome,
            Expansion.prepend_requests, outcome, bounds]
          refine ⟨_, rfl, rfl, ?_, ?_⟩
          · rw [List.map_cons, List.map_cons, uris]
          · intro next member
            rcases List.mem_cons.mp member with rfl | member
            · refine ⟨source, finds, rfl, fun held heldSource => ?_⟩
              cases heldSource
              rfl
            · exact leads next member

theorem leads_of_mem_pending {module : Module} (confirms : surroundings.Confirms module)
    {pending : Pending} (member : pending ∈ module.pending) : surroundings.Leads pending := by
  rcases Module.mem_pending member with ⟨requestMember, bound, importer, unheld⟩
  rcases confirms pending.request requestMember pending.uri bound with ⟨source, finds, same⟩
  refine ⟨source, by rw [importer]; exact finds, same, ?_⟩
  intro held heldSource
  rw [unheld] at heldSource
  cases heldSource

/-! ## Surroundings made of texts -/

/-- Modules that are found by their dotted names, which are their identifiers, too. -/
def ofTexts (texts : List (String × String)) : Surroundings where
  locate := fun requester path =>
    match texts.lookup path.dottedName with
    | some text => .ok (.found ⟨path.dottedName, .held (Utf8.encode text.toList)⟩)
    | none => .ok (.missing ⟨path, [path.dottedName], requester⟩)
  read := fun source =>
    match source.place with
    | .held bytes => .ok bytes
    | .stored _ => .ok []
  candidates := fun _ => texts.map Prod.fst
  read_eq_of_found := by
    intro requester requester' path path' source source' found found' same
    split at found <;> split at found' <;> cases found <;> cases found'
    next text lookup _ text' lookup' =>
      have sameName : path.dottedName = path'.dottedName := same
      rw [sameName, lookup'] at lookup
      cases lookup
      rfl

theorem ofTexts_finds_iff {texts : List (String × String)} {requester : String}
    {path : ImportPath} {source : ModuleSource} :
    (ofTexts texts).Finds requester path source ↔
      ∃ text, texts.lookup path.dottedName = some text ∧
        source = ⟨path.dottedName, .held (Utf8.encode text.toList)⟩ := by
  have asked : (ofTexts texts).locate requester path =
      match texts.lookup path.dottedName with
      | some text => .ok (.found ⟨path.dottedName, .held (Utf8.encode text.toList)⟩)
      | none => .ok (.missing ⟨path, [path.dottedName], requester⟩) := rfl
  rw [Finds, asked]
  cases texts.lookup path.dottedName with
  | none => simp
  | some text => simp [eq_comm]

theorem ofTexts_serves {texts : List (String × String)} {source : ModuleSource}
    (serves : (ofTexts texts).Serves source) :
    ∃ text, texts.lookup source.uri = some text ∧
      source = ⟨source.uri, .held (Utf8.encode text.toList)⟩ := by
  rcases serves with ⟨requester, path, finds⟩
  rcases ofTexts_finds_iff.mp finds with ⟨text, lookup, rfl⟩
  exact ⟨text, lookup, rfl⟩

end Surroundings

end ServiceModules
