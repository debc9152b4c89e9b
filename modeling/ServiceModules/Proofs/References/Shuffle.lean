import ServiceModules.Proofs.Program.Shuffle
import ServiceModules.Proofs.References.Resolution

/-!
Resolving what two crawls have come to whose modules differ in the order of their import statements.
Their requests stand in another order and so do the imported symbols, but a symbol still stands for
the same declaration, so that one result can be resolved if the other one can, and every declaration
has the same places, wherever these have moved.
-/

namespace ServiceModules

variable (place : String → Displacement)

/-- The right module is the left one with its import statements in some other order. -/
structure Module.Mirrors (left right : Module) : Prop where
  uri : right.uri = left.uri
  program : left.program.Shuffles (place left.uri) right.program
  declared : right.table.declared = left.table.declared.map (Symbol.moved place)
  imports : ∃ requests, requests.Perm right.table.imports ∧
    List.Forall₂ (ImportRequest.Matches place left.uri left.program.imports)
      left.table.imports requests

structure CrawlResult.Mirrors (left right : CrawlResult) : Prop where
  uris : ∀ uri, uri ∈ left.uris ↔ uri ∈ right.uris
  modules : ∀ uri leftRecord rightRecord, left.get? uri = some leftRecord →
    right.get? uri = some rightRecord → leftRecord.module.Mirrors place rightRecord.module

/-! ## Links -/

/-- What an imported symbol of a request is bound to, and the symbol. -/
abbrev Link := Option String × ImportedSymbol

namespace Link

def moved (link : Link) : Link := (link.1, link.2.moved place)

def names (uri name : String) (link : Link) : Bool :=
  link.1 = some uri && link.2.name = name

end Link

def ImportRequest.links (request : ImportRequest) : List Link :=
  request.symbols.map fun symbol => (request.target, symbol)

namespace Module

def links (module : Module) : List Link := module.table.imports.flatMap ImportRequest.links

theorem links_eq (module : Module) :
    module.links = module.symbolUses.map fun use => (use.request.target, use.symbol) := by
  simp only [links, symbolUses, SymbolTable.importedSymbols, List.map_map,
    List.map_flatMap]
  rfl

end Module

namespace CrawlResult

def links (result : CrawlResult) : List Link :=
  result.records.flatMap fun record => record.module.links

theorem links_eq (result : CrawlResult) :
    result.links = result.symbolUses.map fun use => (use.request.target, use.symbol) := by
  simp only [links, symbolUses, List.map_flatMap, Module.links_eq]

theorem links_eq_flatMap_uris {result : CrawlResult} (distinct : result.uris.Nodup) :
    result.links = result.uris.flatMap fun uri =>
      ((result.get? uri).map fun record => record.module.links).getD [] := by
  rw [links, records, uris, List.flatMap_map, List.flatMap_map]
  apply List.flatMap_congr
  intro entry member
  rw [get?_of_mem_entries distinct member]
  rfl

theorem any_names (result : CrawlResult) (uri name : String) :
    (result.symbolUses.any fun use => use.names uri name) =
      result.links.any (Link.names uri name) := by
  rw [links_eq, List.any_map]
  rfl

theorem sites_of_names (result : CrawlResult) (uri name : String) :
    (result.symbolUses.filter fun use => use.names uri name).flatMap (fun use => use.symbol.sites) =
      (result.links.filter (Link.names uri name)).flatMap fun link => link.2.sites := by
  rw [links_eq, List.filter_map, List.flatMap_map]
  rfl

theorem exists_references_iff_links {result : CrawlResult} :
    (∃ references, result.references = .ok references) ↔
      ∀ link ∈ result.links, ∃ target record, link.1 = some target ∧
        result.get? target = some record ∧ link.2.name ∈ record.module.table.declaredNames := by
  rw [exists_references_iff, links_eq]
  simp only [List.forall_mem_map]

end CrawlResult

/-! ## Mirrored modules -/

variable {place}

namespace ImportRequest

theorem Matches.links_perm {uri : String} {statements : List ImportStatement}
    {left right : ImportRequest} (same : Matches place uri statements left right) :
    right.links.Perm (left.links.map (Link.moved place)) := by
  rw [links, links, same.target, List.map_map]
  have symbols := same.symbols.map fun symbol => (left.target, symbol)
  rw [List.map_map] at symbols
  exact symbols

theorem links_perm_of_forall₂ {uri : String} {statements : List ImportStatement}
    {left right : List ImportRequest}
    (same : List.Forall₂ (Matches place uri statements) left right) :
    (right.flatMap links).Perm ((left.flatMap links).map (Link.moved place)) := by
  induction same with
  | nil => exact .refl _
  | cons here _ induction =>
      rw [List.flatMap_cons, List.flatMap_cons, List.map_append]
      exact here.links_perm.append induction

end ImportRequest

namespace Module

theorem Mirrors.links_perm {left right : Module} (mirrors : left.Mirrors place right) :
    right.links.Perm (left.links.map (Link.moved place)) := by
  rcases mirrors.imports with ⟨requests, order, same⟩
  exact (order.flatMap_right ImportRequest.links).symm.trans
    (ImportRequest.links_perm_of_forall₂ same)

theorem Mirrors.declaredNames_eq {left right : Module} (mirrors : left.Mirrors place right) :
    right.table.declaredNames = left.table.declaredNames := by
  rw [SymbolTable.declaredNames, mirrors.declared, List.map_map]
  rfl

end Module

/-! ## Mirrored results -/

namespace CrawlResult

namespace Mirrors

variable {left right : CrawlResult} (mirrors : left.Mirrors place right)

include mirrors

theorem exists_right {uri : String} {leftRecord : ModuleRecord}
    (found : left.get? uri = some leftRecord) :
    ∃ rightRecord, right.get? uri = some rightRecord ∧
      leftRecord.module.Mirrors place rightRecord.module := by
  have member : uri ∈ left.uris := contains_iff.mp (Option.isSome_iff_exists.mpr ⟨_, found⟩)
  rcases Option.isSome_iff_exists.mp (contains_iff.mpr ((mirrors.uris uri).mp member)) with
    ⟨rightRecord, there⟩
  exact ⟨rightRecord, there, mirrors.modules uri _ _ found there⟩

theorem exists_left {uri : String} {rightRecord : ModuleRecord}
    (found : right.get? uri = some rightRecord) :
    ∃ leftRecord, left.get? uri = some leftRecord ∧
      leftRecord.module.Mirrors place rightRecord.module := by
  have member : uri ∈ right.uris := contains_iff.mp (Option.isSome_iff_exists.mpr ⟨_, found⟩)
  rcases Option.isSome_iff_exists.mp (contains_iff.mpr ((mirrors.uris uri).mpr member)) with
    ⟨leftRecord, there⟩
  exact ⟨leftRecord, there, mirrors.modules uri _ _ there found⟩

theorem links_perm (leftDistinct : left.uris.Nodup) (rightDistinct : right.uris.Nodup) :
    right.links.Perm (left.links.map (Link.moved place)) := by
  rw [links_eq_flatMap_uris leftDistinct, links_eq_flatMap_uris rightDistinct, List.map_flatMap]
  have order : right.uris.Perm left.uris := (List.perm_ext_iff_of_nodup rightDistinct
    leftDistinct).mpr fun uri => (mirrors.uris uri).symm
  apply List.Perm.flatMap order
  intro uri member
  rcases Option.isSome_iff_exists.mp (contains_iff.mpr member) with ⟨rightRecord, found⟩
  rcases mirrors.exists_left found with ⟨leftRecord, there, same⟩
  rw [found, there]
  exact same.links_perm

theorem exists_references_iff (leftDistinct : left.uris.Nodup) (rightDistinct : right.uris.Nodup) :
    (∃ references, left.references = .ok references) ↔
      ∃ references, right.references = .ok references := by
  have order := mirrors.links_perm leftDistinct rightDistinct
  rw [exists_references_iff_links, exists_references_iff_links]
  constructor
  · intro declared link member
    rcases List.mem_map.mp (order.mem_iff.mp member) with ⟨before, beforeMember, rfl⟩
    rcases declared before beforeMember with ⟨target, leftRecord, bound, found, name⟩
    rcases mirrors.exists_right found with ⟨rightRecord, there, same⟩
    exact ⟨target, rightRecord, bound, there, same.declaredNames_eq ▸ name⟩
  · intro declared link member
    have after : link.moved place ∈ right.links :=
      order.mem_iff.mpr (List.mem_map_of_mem member)
    rcases declared _ after with ⟨target, rightRecord, bound, found, name⟩
    rcases mirrors.exists_left found with ⟨leftRecord, there, same⟩
    exact ⟨target, leftRecord, bound, there, same.declaredNames_eq ▸ name⟩

theorem sitesOf?_rel (leftRead : left.IsRead) (rightRead : right.IsRead)
    {leftReferences rightReferences : References}
    (leftResolved : left.references = .ok leftReferences)
    (rightResolved : right.references = .ok rightReferences) {uri : String}
    {record : ModuleRecord} {symbol : Symbol} (found : left.get? uri = some record)
    (declared : symbol ∈ record.module.table.declared) :
    Option.Rel (fun leftSites rightSites =>
        rightSites.Perm (leftSites.map (Location.moved place)))
      (leftReferences.sitesOf? uri symbol)
      (rightReferences.sitesOf? uri (symbol.moved place)) := by
  have order := mirrors.links_perm leftRead.distinct rightRead.distinct
  rcases mirrors.exists_right found with ⟨rightRecord, there, same⟩
  have rightDeclared : symbol.moved place ∈ rightRecord.module.table.declared := by
    rw [same.declared]
    exact List.mem_map_of_mem declared
  have sameName : (symbol.moved place).name = symbol.name := rfl
  rw [(leftRead.exhausts leftResolved).listed uri record symbol found declared,
    (rightRead.exhausts rightResolved).listed uri rightRecord _ there rightDeclared, sameName,
    any_names, any_names, sites_of_names, sites_of_names]
  have invariant : Link.names uri symbol.name ∘ Link.moved place = Link.names uri symbol.name := rfl
  have sameAny : right.links.any (Link.names uri symbol.name) =
      left.links.any (Link.names uri symbol.name) := by
    rw [order.any_eq, List.any_map, invariant]
  rw [sameAny]
  split
  · apply Option.Rel.some
    have filtered := order.filter (Link.names uri symbol.name)
    rw [List.filter_map, invariant] at filtered
    have sites := filtered.flatMap_right fun link => link.2.sites
    rw [List.flatMap_map] at sites
    simp only [Link.moved, ImportedSymbol.sites_moved, ← List.map_flatMap] at sites
    exact sites
  · exact .none

end Mirrors

end CrawlResult

end ServiceModules
