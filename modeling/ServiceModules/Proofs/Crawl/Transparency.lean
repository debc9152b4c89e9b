import Mathlib
import ServiceModules.Proofs.Crawl.Tour

/-!
A coherent cache is transparent: with it a crawl comes to the same modules in the same order, or to
the same fault, as with an empty cache. The cache stays coherent all along when the root, too, is
what the surroundings serve.
-/

namespace ServiceModules

namespace Surroundings

variable {surroundings : Surroundings} {configuration : Configuration}

theorem Coherent.insertIfNew {cache : ModuleCache} {record : ModuleRecord}
    (coherent : surroundings.Coherent configuration cache)
    (current : surroundings.IsCurrent configuration record.module) :
    surroundings.Coherent configuration (cache.insertIfNew record).2 := by
  intro uri entry member
  rcases ModuleCache.entries_insertIfNew cache record with same | ⟨_, inserted⟩
  · rw [same] at member
    exact coherent uri entry member
  · rw [inserted] at member
    rcases List.mem_append.mp member with member | member
    · exact coherent uri entry member
    · cases List.mem_singleton.mp member
      exact ⟨rfl, current⟩

end Surroundings

namespace Crawl

variable {surroundings : Surroundings} {configuration : Configuration}

theorem coherent_step {crawl : Crawl}
    (coherent : surroundings.Coherent configuration crawl.cache)
    (leads : crawl.failure = none → ∀ pending ∈ crawl.queue, surroundings.Leads pending) :
    surroundings.Coherent configuration
      (crawl.step configuration surroundings.world).cache := by
  rw [step]
  split
  · next pending rest crawlOn queue =>
    have pendingLeads : surroundings.Leads pending :=
      leads crawlOn pending (by
        rw [queue]
        exact List.mem_cons_self ..)
    have visits := @visits_visit configuration surroundings.world { crawl with queue := rest }
      pending surroundings.world_isUndisturbed pendingLeads.hasOwnSource
    generalize visit configuration surroundings.world { crawl with queue := rest } pending = later
      at visits ⊢
    cases visits with
    | known | cached | broken => exact coherent
    | taken _ _ sources loaded succeeded =>
        have serves := pendingLeads.serves_of_sources sources
        have free := Surroundings.unbound_of_load_eq_ok loaded
        intro uri record member
        rcases List.mem_append.mp member with member | member
        · exact coherent uri record member
        · cases List.mem_singleton.mp member
          exact ⟨rfl, Surroundings.isCurrent_expanded
            (Surroundings.vouches_of_load_eq_ok serves loaded)
            (Surroundings.confirms_of_unbound_eq_self free) succeeded⟩
  · exact coherent

theorem coherent_run {crawl : Crawl} {tour : Tour}
    (coherent : surroundings.Coherent configuration crawl.cache)
    (follows : Follows surroundings configuration crawl tour) (count : Nat) :
    surroundings.Coherent configuration
      (crawl.run configuration surroundings.world count).cache := by
  induction count generalizing crawl tour with
  | zero => exact coherent
  | succ count induction =>
      exact induction (coherent_step coherent fun crawlOn => (follows.2 crawlOn).leads)
        follows.step

theorem coherent_start {cache : ModuleCache} {root : ModuleRecord}
    (coherent : surroundings.Coherent configuration cache)
    (confirms : surroundings.Confirms root.module)
    (vouches : surroundings.Vouches configuration root.module) :
    surroundings.Coherent configuration (start surroundings.world cache root).cache := by
  rw [start]
  cases outcome : (Expansion.ofModule surroundings.world root.module []).outcome with
  | error fault => exact coherent
  | ok found =>
      exact coherent.insertIfNew (Surroundings.isCurrent_expanded vouches confirms outcome)

/-- With a coherent cache a crawl comes to what it comes to with an empty one, after as many steps:
the same modules in the same order, or the same fault. If the root is itself what is served, the
cache is coherent after every step. -/
theorem verdict?_eq_of_coherent {cache : ModuleCache} {root : ModuleRecord}
    (coherent : surroundings.Coherent configuration cache)
    (confirms : surroundings.Confirms root.module) :
    (∀ next count,
      ((start surroundings.world cache root).run configuration surroundings.world count).verdict? =
        ((start surroundings.world ⟨[], next⟩ root).run configuration surroundings.world
          count).verdict?) ∧
      (surroundings.Vouches configuration root.module → ∀ count,
        surroundings.Coherent configuration
          ((start surroundings.world cache root).run configuration surroundings.world
            count).cache) := by
  have follows := follows_start coherent confirms
  constructor
  · intro next count
    have followsBare :=
      follows_start (@Surroundings.coherent_empty surroundings configuration next) confirms
    rw [(follows.run count).verdict?_eq, (followsBare.run count).verdict?_eq]
  · intro vouches count
    exact coherent_run (coherent_start coherent confirms vouches) follows count

/-! A module that imports itself is cached, and the root was bound to it in part by a crawl that
failed. -/

def shelfText : String := "from b import B as C\ntype A: C\ntype B: int"

def shelf : Surroundings := .ofTexts [("b", shelfText), ("c", "type C: int")]

def shelfRecord : ModuleRecord :=
  let read := (Module.ofText false "b" shelfText).toOption.getD default
  ⟨read.withImports (read.table.imports.map fun request => request.bind "b"), 0⟩

def shelfRoot : ModuleRecord :=
  let read := (Module.ofText false "a" "from b import B\nfrom c import C").toOption.getD default
  ⟨read.withImports (read.table.imports.map fun request =>
    if request.path.text = "b" then request.bind "b" else request), 1⟩

theorem shelf_finds_b (requester : String) :
    shelf.Finds requester ⟨0, ["b"]⟩ ⟨"b", .held (Utf8.encode shelfText.toList)⟩ :=
  Surroundings.ofTexts_finds_iff.mpr ⟨shelfText, by decide, by decide⟩

theorem shelf_coherent : shelf.Coherent default ⟨[("b", shelfRecord)], 2⟩ := by
  intro uri record member
  cases List.mem_singleton.mp member
  refine ⟨by cbv, ?_⟩
  intro source serves same
  have ownUri : source.uri = "b" := by
    rw [same]
    cbv
  rcases Surroundings.ofTexts_serves serves with ⟨text, lookup, equal⟩
  rw [ownUri] at lookup equal
  cases lookup
  rw [equal]
  constructor
  · cbv
  · have imports : shelfRecord.module.table.imports =
        [⟨⟨0, ["b"]⟩, [⟨"B", "C", some ⟨"b", 1, 15, 1, 21⟩, [⟨"b", 2, 9, 2, 10⟩]⟩],
          some ⟨"b", 1, 6, 1, 7⟩, some "b"⟩] := by cbv
    rw [imports]
    intro request member
    cases List.mem_singleton.mp member
    exact ⟨_, shelf_finds_b _, rfl⟩

theorem shelf_confirms : shelf.Confirms shelfRoot.module := by
  have imports : shelfRoot.module.table.imports =
      [⟨⟨0, ["b"]⟩, [⟨"B", "B", some ⟨"a", 1, 15, 1, 16⟩, []⟩], some ⟨"a", 1, 6, 1, 7⟩,
          some "b"⟩,
        ⟨⟨0, ["c"]⟩, [⟨"C", "C", some ⟨"a", 2, 15, 2, 16⟩, []⟩], some ⟨"a", 2, 6, 2, 7⟩,
          none⟩] := by cbv
  intro request member target bound
  rw [imports] at member
  rcases List.mem_cons.mp member with rfl | member
  · cases bound
    exact ⟨_, shelf_finds_b _, rfl⟩
  · cases List.mem_singleton.mp member
    cases bound

theorem shelf_vouches : shelf.Vouches default shelfRoot.module := by
  intro source serves same
  have ownUri : source.uri = "a" := by
    rw [same]
    cbv
  rcases Surroundings.ofTexts_serves serves with ⟨text, lookup, _⟩
  rw [ownUri] at lookup
  cases lookup

theorem verdict?_eq_of_coherent_shelf :
    shelf.Coherent default ⟨[("b", shelfRecord)], 2⟩ ∧ shelf.Confirms shelfRoot.module ∧
      shelf.Vouches default shelfRoot.module ∧
      (∀ next count,
        ((start shelf.world ⟨[("b", shelfRecord)], 2⟩ shelfRoot).run default shelf.world
            count).verdict? =
          ((start shelf.world ⟨[], next⟩ shelfRoot).run default shelf.world count).verdict?) ∧
      ∀ count, shelf.Coherent default
        ((start shelf.world ⟨[("b", shelfRecord)], 2⟩ shelfRoot).run default shelf.world
          count).cache :=
  have transparent := verdict?_eq_of_coherent shelf_coherent shelf_confirms
  ⟨shelf_coherent, shelf_confirms, shelf_vouches, transparent.1, transparent.2 shelf_vouches⟩

end Crawl

end ServiceModules
