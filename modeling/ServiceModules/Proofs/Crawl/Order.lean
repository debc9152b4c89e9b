import Mathlib.Data.List.Shortlex
import Mathlib.Data.Prod.Lex
import Mathlib.Order.Bounds.Basic
import ServiceModules.Proofs.Crawl.Reachability

/-!
The order of a crawl. A chain of imports leads from the root to a module, and the first of all its
chains, short ones before long ones, gives the module its place. A crawl that succeeds has reached
the modules in the order of these places, and one that fails has met the fault of the first module
in this order that has one.
-/

namespace ServiceModules

/-- The places, counted from zero, of the import requests that are followed from the root on. -/
structure ImportChain where
  places : List Nat
deriving DecidableEq, Repr

namespace ImportChain

def root : ImportChain := ⟨[]⟩

def extend (chain : ImportChain) (place : Nat) : ImportChain := ⟨chain.places ++ [place]⟩

def length (chain : ImportChain) : Nat := chain.places.length

/-- Shorter chains are less, and of equally long ones the one with the lesser place where they
part. -/
instance : LinearOrder ImportChain :=
  LinearOrder.lift' (fun chain => toLex (chain.places.length, chain.places))
    (by
      rintro ⟨left⟩ ⟨right⟩ same
      cases (Prod.mk.inj (toLex.injective same)).2
      rfl)

theorem lt_iff_shortlex {left right : ImportChain} :
    left < right ↔ List.Shortlex (· < ·) left.places right.places := by
  rw [List.shortlex_def]
  exact Prod.Lex.toLex_lt_toLex

theorem length_le_of_le {left right : ImportChain} (atMost : left ≤ right) :
    left.length ≤ right.length := by
  rcases atMost.eq_or_lt with rfl | less
  · exact Nat.le_refl _
  · rcases List.shortlex_def.mp (lt_iff_shortlex.mp less) with shorter | ⟨same, _⟩
    · exact Nat.le_of_lt shorter
    · exact Nat.le_of_eq same

theorem lt_extend (chain : ImportChain) (place : Nat) : chain < chain.extend place := by
  apply lt_iff_shortlex.mpr
  apply List.Shortlex.of_length_lt
  rw [extend, List.length_append]
  exact Nat.lt_succ_self _

theorem extend_lt_extend (chain : ImportChain) {place later : Nat} (less : place < later) :
    chain.extend place < chain.extend later :=
  lt_iff_shortlex.mpr (((List.shortlex_singleton_iff place later).mpr less).append_left _)

theorem lex_append_of_lex {left right : List Nat} (same : left.length = right.length)
    (less : List.Lex (· < ·) left right) (leftRest rightRest : List Nat) :
    List.Lex (· < ·) (left ++ leftRest) (right ++ rightRest) := by
  induction less with
  | nil => cases same
  | cons _ induction => exact .cons (induction (Nat.succ.inj same))
  | rel less => exact .rel less

theorem extend_lt_extend_of_lt {left right : ImportChain} (less : left < right)
    (leftPlace rightPlace : Nat) : left.extend leftPlace < right.extend rightPlace := by
  rw [lt_iff_shortlex, List.shortlex_def] at less ⊢
  rw [extend, extend, List.length_append, List.length_append]
  rcases less with shorter | ⟨same, less⟩
  · exact .inl (Nat.add_lt_add_right shorter 1)
  · exact .inr ⟨congrArg (· + 1) same, lex_append_of_lex same less _ _⟩

theorem extend_le_extend {left right : ImportChain} (atMost : left ≤ right) (place : Nat) :
    left.extend place ≤ right.extend place := by
  rcases atMost.eq_or_lt with rfl | less
  · exact le_refl _
  · exact (extend_lt_extend_of_lt less place place).le

end ImportChain

namespace Surroundings

variable (surroundings : Surroundings) (configuration : Configuration) (root : Module)

inductive ChainTo : ImportChain → String → Prop
  | root : ChainTo .root root.uri
  | step {chain : ImportChain} {module : Module} {place : Nat} {request : ImportRequest}
      {source : ModuleSource} (chainTo : ChainTo chain module.uri)
      (holds : surroundings.Holds configuration root module)
      (asked : module.table.imports[place]? = some request)
      (finds : surroundings.Finds module.uri request.path source) :
      ChainTo (chain.extend place) source.uri

def IsFirstChain (chain : ImportChain) (uri : String) : Prop :=
  IsLeast {other | surroundings.ChainTo configuration root other uri} chain

/-- The number of imports on the shortest way from the root. -/
def IsDistance (uri : String) (distance : Nat) : Prop :=
  IsLeast (ImportChain.length '' {chain | surroundings.ChainTo configuration root chain uri})
    distance

/-- One module comes before another in breadth-first order. -/
def Precedes (uri later : String) : Prop :=
  ∃ chain laterChain, surroundings.IsFirstChain configuration root chain uri ∧
    surroundings.IsFirstChain configuration root laterChain later ∧ chain < laterChain

/-- Why a module is not sound: it cannot be read, or it has an import that is not located, the first
one of which counts. -/
inductive FaultAt : String → Fault → Prop
  | unreadable {source : ModuleSource} {fault : Fault} (serves : surroundings.Serves source)
      (other : source.uri ≠ root.uri)
      (failed : surroundings.load configuration source = .error fault) : FaultAt source.uri fault
  | unlocated {module : Module} {before after : List ImportRequest} {request : ImportRequest}
      {fault : Fault} (holds : surroundings.Holds configuration root module)
      (requests : module.table.imports = before ++ request :: after)
      (located : ∀ earlier ∈ before,
        ∃ source, surroundings.Finds module.uri earlier.path source)
      (failed : surroundings.source module request = .error fault) : FaultAt module.uri fault

/-- The fault of the first module, in breadth-first order, that is not sound. -/
def IsFirstFault (fault : Fault) : Prop :=
  ∃ uri, surroundings.Reachable configuration root uri ∧
    surroundings.FaultAt configuration root uri fault ∧
    ∀ earlier, surroundings.Precedes configuration root earlier uri →
      surroundings.IsSound configuration root earlier

/-- The reachable modules, each once and in breadth-first order. -/
structure ListsInOrder (uris : List String) : Prop where
  mem_iff : ∀ uri, uri ∈ uris ↔ surroundings.Reachable configuration root uri
  ordered : uris.Pairwise (surroundings.Precedes configuration root)
  distances : uris.Pairwise fun uri later =>
    ∃ near far, surroundings.IsDistance configuration root uri near ∧
      surroundings.IsDistance configuration root later far ∧ near ≤ far

variable {surroundings configuration root}

theorem reachable_iff_exists_chainTo {uri : String} :
    surroundings.Reachable configuration root uri ↔
      ∃ chain, surroundings.ChainTo configuration root chain uri := by
  constructor
  · intro reachable
    induction reachable with
    | root => exact ⟨.root, .root⟩
    | step _ holds member finds induction =>
        rcases induction with ⟨chain, chainTo⟩
        rcases List.mem_iff_getElem?.mp member with ⟨place, asked⟩
        exact ⟨chain.extend place, .step chainTo holds asked finds⟩
  · rintro ⟨chain, chainTo⟩
    induction chainTo with
    | root => exact .root
    | step _ holds asked finds induction =>
        exact .step induction holds (List.mem_of_getElem? asked) finds

theorem IsFirstChain.isDistance {chain : ImportChain} {uri : String}
    (first : surroundings.IsFirstChain configuration root chain uri) :
    surroundings.IsDistance configuration root uri chain.length := by
  refine ⟨⟨chain, first.1, rfl⟩, ?_⟩
  rintro _ ⟨other, otherTo, rfl⟩
  exact ImportChain.length_le_of_le (first.2 otherTo)

theorem Precedes.distance_le {uri later : String}
    (precedes : surroundings.Precedes configuration root uri later) :
    ∃ near far, surroundings.IsDistance configuration root uri near ∧
      surroundings.IsDistance configuration root later far ∧ near ≤ far := by
  rcases precedes with ⟨chain, laterChain, first, laterFirst, less⟩
  exact ⟨_, _, first.isDistance, laterFirst.isDistance, ImportChain.length_le_of_le less.le⟩

theorem exists_first_unlocated {importer : Module} {requests : List ImportRequest} {fault : Fault}
    (failed : surroundings.sources importer requests = .error fault) :
    ∃ before request after, requests = before ++ request :: after ∧
      (∀ earlier ∈ before, ∃ source, surroundings.Finds importer.uri earlier.path source) ∧
      surroundings.source importer request = .error fault := by
  induction requests with
  | nil => cases failed
  | cons request rest induction =>
      rcases sources_cons_eq_error failed with here | ⟨⟨source, located⟩, behind⟩
      · refine ⟨[], request, rest, rfl, ?_, here⟩
        intro earlier member
        cases member
      · rcases induction behind with ⟨before, missing, after, rfl, finds, there⟩
        refine ⟨request :: before, missing, after, rfl, ?_, there⟩
        intro earlier member
        rcases List.mem_cons.mp member with rfl | member
        · exact ⟨source, source_eq_ok_iff.mp located⟩
        · exact finds earlier member

theorem faultAt_of_sources_eq_error {module : Module} {fault : Fault}
    (holds : surroundings.Holds configuration root module)
    (failed : surroundings.sources module module.table.imports = .error fault) :
    surroundings.FaultAt configuration root module.uri fault := by
  rcases exists_first_unlocated failed with ⟨before, request, after, requests, located, here⟩
  exact .unlocated holds requests located here

theorem exists_getElem?_of_forall₂ {α β : Type} {relation : α → β → Prop} {left : List α}
    {right : List β} (related : List.Forall₂ relation left right) {place : Nat} {first : α}
    (here : left[place]? = some first) :
    ∃ second, right[place]? = some second ∧ relation first second := by
  induction related generalizing place with
  | nil => cases here
  | @cons head second _ _ relates _ induction =>
      cases place with
      | zero =>
          cases here
          exact ⟨second, rfl, relates⟩
      | succ place => exact induction here

end Surroundings

/-! ## What is known and what lies ahead, with the chains -/

namespace ImportChain

def children (chain : ImportChain) (found : List ModuleSource) : List (ImportChain × String) :=
  found.mapIdx fun place source => (chain.extend place, source.uri)

theorem children_map_snd (chain : ImportChain) (found : List ModuleSource) :
    (chain.children found).map Prod.snd = found.map ModuleSource.uri := by
  apply List.ext_getElem
  · simp [children]
  · intro place _ _
    simp [children]

theorem mem_children {chain : ImportChain} {found : List ModuleSource}
    {entry : ImportChain × String} :
    entry ∈ chain.children found ↔
      ∃ place source, found[place]? = some source ∧ entry = (chain.extend place, source.uri) := by
  rw [children, List.mem_mapIdx]
  constructor
  · rintro ⟨place, bound, rfl⟩
    exact ⟨place, found[place], List.getElem?_eq_getElem bound, rfl⟩
  · rintro ⟨place, source, here, rfl⟩
    rcases List.getElem?_eq_some_iff.mp here with ⟨bound, rfl⟩
    exact ⟨place, bound, rfl⟩

theorem children_pairwise (chain : ImportChain) (found : List ModuleSource) :
    (chain.children found).Pairwise fun entry later => entry.1 < later.1 := by
  rw [List.pairwise_iff_getElem]
  intro place later _ _ less
  simp only [children, List.getElem_mapIdx]
  exact chain.extend_lt_extend less

end ImportChain

/-- The invariant of a walk in breadth-first order: the entries follow each other by their chains,
those ahead span at most two neighbouring lengths, and what the known modules import is either known
or ahead, by a chain that is no later than the one over the import. -/
structure Ranks (surroundings : Surroundings) (configuration : Configuration) (root : Module)
    (known ahead : List (ImportChain × String)) : Prop where
  ordered : (known ++ ahead).Pairwise fun entry later => entry.1 < later.1
  rooted : (ImportChain.root, root.uri) ∈ known ++ ahead
  first : ∀ entry ∈ known, surroundings.IsFirstChain configuration root entry.1 entry.2
  leads : ∀ entry ∈ ahead, surroundings.ChainTo configuration root entry.1 entry.2
  level : ∀ entry ∈ ahead, ∀ other ∈ ahead, ∀ place, other.1 < entry.1.extend place
  closed : ∀ entry ∈ known, ∃ module, surroundings.Holds configuration root module ∧
    module.uri = entry.2 ∧ ∀ place request, module.table.imports[place]? = some request →
      ∃ source, surroundings.Finds module.uri request.path source ∧
        ∃ chain, (chain, source.uri) ∈ known ++ ahead ∧ chain ≤ entry.1.extend place

namespace Ranks

variable {surroundings : Surroundings} {configuration : Configuration} {root : Module}
  {known ahead : List (ImportChain × String)} {chain : ImportChain} {uri : String}

theorem start : Ranks surroundings configuration root [] [(.root, root.uri)] where
  ordered := List.pairwise_singleton _ _
  rooted := List.mem_singleton.mpr rfl
  first := by simp
  leads := by
    intro entry member
    rw [List.mem_singleton.mp member]
    exact .root
  level := by
    intro entry member other otherMember place
    rw [List.mem_singleton.mp member, List.mem_singleton.mp otherMember]
    exact ImportChain.lt_extend _ place
  closed := by simp

theorem isSound (ranks : Ranks surroundings configuration root known ahead)
    {entry : ImportChain × String} (member : entry ∈ known) :
    surroundings.IsSound configuration root entry.2 := by
  rcases ranks.closed entry member with ⟨module, holds, same, located⟩
  refine ⟨module, holds, same, fun request requestMember => ?_⟩
  rcases List.mem_iff_getElem?.mp requestMember with ⟨place, asked⟩
  rcases located place request asked with ⟨source, finds, _⟩
  exact ⟨source, same ▸ finds⟩

theorem covers (ranks : Ranks surroundings configuration root known ahead)
    (chainTo : surroundings.ChainTo configuration root chain uri) :
    (∃ early ≤ chain, (early, uri) ∈ known) ∨ ∃ entry ∈ ahead, entry.1 ≤ chain := by
  induction chainTo with
  | root =>
      rcases List.mem_append.mp ranks.rooted with isKnown | isAhead
      · exact .inl ⟨.root, le_refl _, isKnown⟩
      · exact .inr ⟨_, isAhead, le_refl _⟩
  | @step chain module place request source _ holds asked finds induction =>
      rcases induction with ⟨early, atMost, isKnown⟩ | ⟨entry, isAhead, atMost⟩
      · rcases ranks.closed _ isKnown with ⟨other, holdsOther, same, located⟩
        cases holdsOther.unique holds same
        rcases located place request asked with ⟨found, findsFound, short, member, shortAtMost⟩
        cases finds.unique findsFound
        have shortest := shortAtMost.trans (ImportChain.extend_le_extend atMost place)
        rcases List.mem_append.mp member with isKnown | isAhead
        · exact .inl ⟨short, shortest, isKnown⟩
        · exact .inr ⟨_, isAhead, shortest⟩
      · exact .inr ⟨entry, isAhead, atMost.trans (chain.lt_extend place).le⟩

theorem head_le (ranks : Ranks surroundings configuration root known ((chain, uri) :: ahead))
    {entry : ImportChain × String} (member : entry ∈ (chain, uri) :: ahead) : chain ≤ entry.1 := by
  have ordered := (List.pairwise_append.mp ranks.ordered).2.1
  rcases List.mem_cons.mp member with rfl | member
  · exact le_refl _
  · exact ((List.pairwise_cons.mp ordered).1 entry member).le

theorem isFirstChain (ranks : Ranks surroundings configuration root known ((chain, uri) :: ahead))
    (new : uri ∉ known.map Prod.snd) :
    surroundings.IsFirstChain configuration root chain uri := by
  refine ⟨ranks.leads _ (List.mem_cons_self ..), fun other otherTo => ?_⟩
  rcases ranks.covers otherTo with ⟨early, _, isKnown⟩ | ⟨entry, isAhead, atMost⟩
  · exact absurd (List.mem_map_of_mem isKnown) new
  · exact (ranks.head_le isAhead).trans atMost

/-- All modules before the one at the head are sound, so that its fault is the first one. -/
theorem isFirstFault {fault : Fault}
    (ranks : Ranks surroundings configuration root known ((chain, uri) :: ahead))
    (new : uri ∉ known.map Prod.snd)
    (faultAt : surroundings.FaultAt configuration root uri fault) :
    surroundings.IsFirstFault configuration root fault := by
  have chainTo := ranks.leads _ (List.mem_cons_self ..)
  refine ⟨uri, Surroundings.reachable_iff_exists_chainTo.mpr ⟨chain, chainTo⟩, faultAt, ?_⟩
  rintro earlier ⟨earlierChain, laterChain, earlierFirst, laterFirst, less⟩
  rw [laterFirst.unique (ranks.isFirstChain new)] at less
  rcases ranks.covers earlierFirst.1 with ⟨early, _, isKnown⟩ | ⟨entry, isAhead, atMost⟩
  · exact ranks.isSound isKnown
  · exact absurd ((ranks.head_le isAhead).trans atMost) (not_le.mpr less)

theorem skip (ranks : Ranks surroundings configuration root known ((chain, uri) :: ahead))
    (reached : uri ∈ known.map Prod.snd) : Ranks surroundings configuration root known ahead := by
  rcases List.mem_map.mp reached with ⟨⟨early, other⟩, isKnown, same⟩
  have same : other = uri := same
  rw [same] at isKnown
  have ordered := List.pairwise_append.mp ranks.ordered
  have less : early < chain := ordered.2.2 _ isKnown _ (List.mem_cons_self ..)
  -- The entry that is dropped is replaced by the known one.
  have stays : ∀ {bound : ImportChain} {other : String},
      (∃ short, (short, other) ∈ known ++ (chain, uri) :: ahead ∧ short ≤ bound) →
      ∃ short, (short, other) ∈ known ++ ahead ∧ short ≤ bound := by
    rintro bound other ⟨short, member, atMost⟩
    rcases List.mem_append.mp member with member | member
    · exact ⟨short, List.mem_append_left _ member, atMost⟩
    · rcases List.mem_cons.mp member with same | member
      · cases same
        exact ⟨early, List.mem_append_left _ isKnown, less.le.trans atMost⟩
      · exact ⟨short, List.mem_append_right _ member, atMost⟩
  exact
    { ordered := List.pairwise_append.mpr
        ⟨ordered.1, (List.pairwise_cons.mp ordered.2.1).2,
          fun entry member other otherMember =>
            ordered.2.2 entry member other (List.mem_cons_of_mem _ otherMember)⟩
      rooted := by
        rcases stays ⟨.root, ranks.rooted, le_refl _⟩ with ⟨short, member, atMost⟩
        have same : short = .root := by
          apply le_antisymm atMost
          rw [← not_lt, ImportChain.lt_iff_shortlex]
          exact List.not_shortlex_nil_right
        rwa [same] at member
      first := ranks.first
      leads := fun entry member => ranks.leads entry (List.mem_cons_of_mem _ member)
      level := fun entry member other otherMember =>
        ranks.level entry (List.mem_cons_of_mem _ member) other
          (List.mem_cons_of_mem _ otherMember)
      closed := by
        intro entry member
        rcases ranks.closed entry member with ⟨module, holds, same, located⟩
        refine ⟨module, holds, same, fun place request asked => ?_⟩
        rcases located place request asked with ⟨source, finds, short⟩
        exact ⟨source, finds, stays short⟩ }

theorem ordered_take (ranks : Ranks surroundings configuration root known ((chain, uri) :: ahead))
    (found : List ModuleSource) :
    ((known ++ (chain, uri) :: ahead) ++ chain.children found).Pairwise
      fun entry later => entry.1 < later.1 := by
  have ordered := ranks.ordered
  refine List.pairwise_append.mpr ⟨ordered, chain.children_pairwise found, ?_⟩
  intro entry member child childMember
  rcases ImportChain.mem_children.mp childMember with ⟨place, source, _, rfl⟩
  rcases List.mem_append.mp member with isKnown | isAhead
  · have less := (List.pairwise_append.mp ordered).2.2 entry isKnown _ (List.mem_cons_self ..)
    exact less.trans (chain.lt_extend place)
  · exact ranks.level (chain, uri) (List.mem_cons_self ..) entry isAhead place

theorem level_take (ranks : Ranks surroundings configuration root known ((chain, uri) :: ahead))
    (found : List ModuleSource) :
    ∀ entry ∈ ahead ++ chain.children found, ∀ other ∈ ahead ++ chain.children found, ∀ place,
      other.1 < entry.1.extend place := by
  have ordered := (List.pairwise_append.mp (ranks.ordered_take found)).2.2
  -- Every entry comes after the one at the head, which bounds the chains of its children.
  have after : ∀ entry ∈ ahead ++ chain.children found, chain < entry.1 := by
    intro entry member
    rcases List.mem_append.mp member with isAhead | isChild
    · have tail := (List.pairwise_append.mp ranks.ordered).2.1
      exact (List.pairwise_cons.mp tail).1 entry isAhead
    · exact ordered (chain, uri) (List.mem_append_right _ (List.mem_cons_self ..)) entry isChild
  intro entry member other otherMember place
  rcases List.mem_append.mp otherMember with otherAhead | otherChild
  · rcases List.mem_append.mp member with isAhead | isChild
    · exact ranks.level entry (List.mem_cons_of_mem _ isAhead) other
        (List.mem_cons_of_mem _ otherAhead) place
    · have less := ordered other
        (List.mem_append_right _ (List.mem_cons_of_mem _ otherAhead)) entry isChild
      exact less.trans (entry.1.lt_extend place)
  · rcases ImportChain.mem_children.mp otherChild with ⟨otherPlace, source, _, rfl⟩
    exact ImportChain.extend_lt_extend_of_lt (after entry member) otherPlace place

/-- The module at the head, read and with all its imports located, is known from now on. -/
theorem take {module : Module} {found : List ModuleSource}
    (ranks : Ranks surroundings configuration root known ((chain, module.uri) :: ahead))
    (new : module.uri ∉ known.map Prod.snd)
    (holds : surroundings.Holds configuration root module)
    (finds : List.Forall₂ (fun request source => surroundings.Finds module.uri request.path source)
      module.table.imports found) :
    Ranks surroundings configuration root (known ++ [(chain, module.uri)])
      (ahead ++ chain.children found) := by
  -- The module at the head is known now, and what it imports is ahead behind all others.
  have whole : (known ++ [(chain, module.uri)]) ++ (ahead ++ chain.children found) =
      (known ++ (chain, module.uri) :: ahead) ++ chain.children found := by simp
  have chainTo := ranks.leads _ (List.mem_cons_self ..)
  exact
    { ordered := by
        rw [whole]
        exact ranks.ordered_take found
      rooted := by
        rw [whole]
        exact List.mem_append_left _ ranks.rooted
      first := by
        intro entry member
        rcases List.mem_append.mp member with member | member
        · exact ranks.first entry member
        · rw [List.mem_singleton.mp member]
          exact ranks.isFirstChain new
      leads := by
        intro entry member
        rcases List.mem_append.mp member with member | member
        · exact ranks.leads entry (List.mem_cons_of_mem _ member)
        · rcases ImportChain.mem_children.mp member with ⟨place, source, here, rfl⟩
          rcases Surroundings.exists_getElem?_of_forall₂ finds.flip here with
            ⟨request, asked, findsHere⟩
          exact .step chainTo holds asked findsHere
      level := ranks.level_take found
      closed := by
        intro entry member
        rw [whole]
        rcases List.mem_append.mp member with member | member
        · rcases ranks.closed entry member with ⟨other, holdsOther, same, located⟩
          refine ⟨other, holdsOther, same, fun place request asked => ?_⟩
          rcases located place request asked with ⟨source, findsOther, short, shortMember, atMost⟩
          exact ⟨source, findsOther, short, List.mem_append_left _ shortMember, atMost⟩
        · rw [List.mem_singleton.mp member]
          refine ⟨module, holds, rfl, fun place request asked => ?_⟩
          rcases Surroundings.exists_getElem?_of_forall₂ finds asked with
            ⟨source, here, findsHere⟩
          have child : (chain.extend place, source.uri) ∈ chain.children found :=
            ImportChain.mem_children.mpr ⟨place, source, here, rfl⟩
          exact ⟨source, findsHere, _, List.mem_append_right _ child, le_refl _⟩ }

end Ranks

namespace Tour

/-- A tour that goes on walks in breadth-first order, and one that has failed has met the first
fault. -/
def IsOrdered (surroundings : Surroundings) (configuration : Configuration) (root : Module)
    (tour : Tour) : Prop :=
  (tour.failure = none → ∃ known ahead, Ranks surroundings configuration root known ahead ∧
    known.map Prod.snd = tour.uris ∧
    ahead.map Prod.snd = tour.waiting.map ModuleSource.uri) ∧
  ∀ fault, tour.failure = some fault → surroundings.IsFirstFault configuration root fault

variable {surroundings : Surroundings} {configuration : Configuration} {root : Module}
  {tour : Tour} {known ahead : List (ImportChain × String)} {chain : ImportChain}

theorem IsOrdered.of_fail {fault : Fault}
    (first : surroundings.IsFirstFault configuration root fault) :
    (tour.fail fault).IsOrdered surroundings configuration root := by
  refine ⟨fun unfailed => ?_, fun other failed => ?_⟩
  · cases unfailed
  · cases failed
    exact first

theorem isOrdered_reach {module : Module} (running : tour.failure = none)
    (ranks : Ranks surroundings configuration root known ((chain, module.uri) :: ahead))
    (knownUris : known.map Prod.snd = tour.uris)
    (aheadUris : ahead.map Prod.snd = tour.waiting.map ModuleSource.uri)
    (new : module.uri ∉ tour.uris) (holds : surroundings.Holds configuration root module) :
    (tour.reach surroundings module).IsOrdered surroundings configuration root := by
  rw [← knownUris] at new
  cases located : surroundings.sources module module.table.imports with
  | error fault =>
      rw [reach_of_unlocated located]
      exact .of_fail (ranks.isFirstFault new
        (Surroundings.faultAt_of_sources_eq_error holds located))
  | ok found =>
      have finds := Surroundings.sources_eq_ok_iff.mp located
      rw [reach_of_located located]
      refine ⟨fun _ => ⟨_, _, ranks.take new holds finds, ?_, ?_⟩, fun fault failed => ?_⟩
      · rw [List.map_append, knownUris, uris, uris, List.map_append]
        rfl
      · rw [List.map_append, aheadUris, ImportChain.children_map_snd, List.map_append]
      · rw [running] at failed
        cases failed

theorem isOrdered_start : (start surroundings root).IsOrdered surroundings configuration root :=
  isOrdered_reach rfl Ranks.start rfl rfl List.not_mem_nil .root

theorem IsOrdered.step (isOrdered : tour.IsOrdered surroundings configuration root)
    (accounts : tour.Accounts surroundings configuration root) :
    (tour.step surroundings configuration).IsOrdered surroundings configuration root := by
  by_cases running : tour.failure = none
  · cases queue : tour.waiting with
    | nil =>
        rw [step_of_finished fun _ _ _ => by simp [queue]]
        exact isOrdered
    | cons source rest =>
        have explores := accounts.1 running
        have serves := (explores.waiting source (queue ▸ List.mem_cons_self ..)).1
        have different : source.uri ∉ tour.uris → source.uri ≠ root.uri := by
          intro new same
          exact new (same ▸ explores.rooted)
        rcases isOrdered.1 running with ⟨known, entries, ranks, knownUris, aheadUris⟩
        rw [queue, List.map_cons] at aheadUris
        rcases List.map_eq_cons_iff.mp aheadUris with ⟨⟨chain, uri⟩, ahead, rfl, same, restUris⟩
        have same : uri = source.uri := same
        rw [same] at ranks
        rcases @step_cases surroundings configuration tour running source rest queue with
          ⟨isKnown, stepped⟩ | ⟨new, fault, failed, stepped⟩ | ⟨new, module, loaded, stepped⟩
        · rw [← knownUris] at isKnown
          rw [stepped]
          exact ⟨fun _ => ⟨known, ahead, ranks.skip isKnown, knownUris, restUris⟩, isOrdered.2⟩
        -- The head has the least chain of all modules that are not known, so that nothing comes
        -- before its fault.
        · have faultAt := Surroundings.FaultAt.unreadable serves (different new) failed
          rw [← knownUris] at new
          rw [stepped]
          exact .of_fail (ranks.isFirstFault new faultAt)
        · have holds := Surroundings.Holds.served serves (different new) loaded
          have ownUri := Surroundings.uri_of_load_eq_ok loaded
          rw [← ownUri] at ranks new
          rw [stepped]
          exact isOrdered_reach running ranks knownUris restUris new holds
  · rw [step_of_finished fun _ _ unfailed => absurd unfailed running]
    exact isOrdered

theorem IsOrdered.run (isOrdered : tour.IsOrdered surroundings configuration root)
    (accounts : tour.Accounts surroundings configuration root) (count : Nat) :
    (tour.run surroundings configuration count).IsOrdered surroundings configuration root := by
  induction count generalizing tour with
  | zero => exact isOrdered
  | succ count induction => exact induction (isOrdered.step accounts) accounts.step

theorem IsOrdered.pairwise (isOrdered : tour.IsOrdered surroundings configuration root)
    (running : tour.failure = none) :
    tour.uris.Pairwise (surroundings.Precedes configuration root) := by
  rcases isOrdered.1 running with ⟨known, ahead, ranks, knownUris, _⟩
  rw [← knownUris, List.pairwise_map]
  refine (List.pairwise_append.mp ranks.ordered).1.imp_of_mem fun member laterMember less => ?_
  exact ⟨_, _, ranks.first _ member, ranks.first _ laterMember, less⟩

end Tour

namespace Crawl

variable {surroundings : Surroundings} {configuration : Configuration} {root : ModuleRecord}

/-- From a root with unresolved imports and with an empty cache, a crawl ends if only finitely many
modules are reachable. If it succeeds, its result lists these modules in breadth-first order, and if
it fails, this is for the fault of the first module in this order that has one. -/
theorem exists_outcome?_inOrder
    (free : ∀ request ∈ root.module.table.imports, request.target = none)
    (finite : {uri | surroundings.Reachable configuration root.module uri}.Finite) (next : Nat) :
    ∃ count outcome,
      ((start surroundings.world ⟨[], next⟩ root).run configuration surroundings.world
        count).outcome? = some outcome ∧
      (∀ result, outcome = .ok result →
        surroundings.ListsInOrder configuration root.module result.uris) ∧
      ∀ fault, outcome = .error fault →
        surroundings.IsFirstFault configuration root.module fault := by
  have confirms : surroundings.Confirms root.module :=
    Surroundings.confirms_of_unbound_eq_self (Module.unbound_eq_self free)
  have starts := follows_start (@Surroundings.coherent_empty surroundings configuration next)
    confirms
  rcases Tour.exists_outcome? finite (Tour.start surroundings root.module) Tour.accounts_start with
    ⟨count, tourOutcome, tourFinished⟩
  have follows := starts.run count
  have begun := @Tour.accounts_start surroundings configuration root.module
  have accounts := begun.run count
  have isOrdered := Tour.isOrdered_start.run begun count
  have verdict := follows.verdict?_eq
  rw [tourFinished, verdict?] at verdict
  rcases Option.map_eq_some_iff.mp verdict with ⟨outcome, finished, same⟩
  refine ⟨count, outcome, finished, ?_, ?_⟩
  · rintro result rfl
    rcases eq_of_outcome?_eq_ok finished with ⟨running, nothing, rfl⟩
    have tourRunning := follows.1.symm.trans running
    have ordered := isOrdered.pairwise tourRunning
    cases tourOutcome with
    | error fault => cases same
    | ok reached =>
        rw [(follows.2 running).uris_eq]
        exact
          { mem_iff := (Tour.mem_uris_iff_of_outcome? accounts tourFinished).1
            ordered := ordered
            distances := ordered.imp Surroundings.Precedes.distance_le }
  · rintro fault rfl
    exact isOrdered.2 fault (follows.1.symm.trans (failure_of_outcome?_eq_error finished))

theorem exists_outcome?_inOrder_ring :
    (∀ request ∈ ringRoot.module.table.imports, request.target = none) ∧
      {uri | ring.Reachable default ringRoot.module uri}.Finite ∧
      ∃ count outcome,
        ((start ring.world ⟨[], 1⟩ ringRoot).run default ring.world count).outcome?
          = some outcome ∧
        (∀ result, outcome = .ok result →
          ring.ListsInOrder default ringRoot.module result.uris) ∧
        ∀ fault, outcome = .error fault → ring.IsFirstFault default ringRoot.module fault :=
  have finite := Surroundings.finite_reachable_ofTexts _ _ _
  ⟨ringRoot_free, finite, exists_outcome?_inOrder ringRoot_free finite 1⟩

end Crawl

end ServiceModules
