import Mathlib.Data.Option.Basic
import ServiceModules.Proofs.Module.Renaming

/-!
References under other identifiers. When the modules of a crawl are given other identifiers, the
references among them are the same but for the identifiers, in the same order.
-/

namespace ServiceModules

variable {rename : String → String}

def SymbolUse.renamed (rename : String → String) (use : SymbolUse) : SymbolUse where
  importer := use.importer.renamed rename
  request := use.request.renamed rename
  symbol := use.symbol.renamed rename

theorem ImportedSymbol.sites_renamed (symbol : ImportedSymbol) :
    (symbol.renamed rename).sites = symbol.sites.map (Location.renamed rename) := by
  rw [sites, sites, List.map_append]
  cases symbol with
  | mk name localName location usages => cases location <;> rfl

theorem SymbolTable.lookup_renamed (table : SymbolTable) (name : String) :
    (table.renamed rename).lookup name = (table.lookup name).map (Symbol.renamed rename) := by
  rw [lookup, lookup, renamed, List.find?_map]
  rfl

theorem Module.symbolUses_renamed (module : Module) :
    (module.renamed rename).symbolUses =
      module.symbolUses.map (SymbolUse.renamed rename) := by
  simp only [symbolUses, SymbolTable.importedSymbols, renamed, SymbolTable.renamed,
    List.map_flatMap, List.flatMap_map, List.map_map, ImportRequest.renamed]
  rfl

theorem CrawlResult.symbolUses_renamed (result : CrawlResult) :
    (result.renamed rename).symbolUses =
      result.symbolUses.map (SymbolUse.renamed rename) := by
  simp only [symbolUses, records, renamed, List.map_map, List.flatMap_map, List.map_flatMap,
    Function.comp_def, ← Module.symbolUses_renamed]
  rfl

section

variable (injective : Function.Injective rename)
include injective

theorem Location.renamed_injective : Function.Injective (Location.renamed rename) := by
  rintro ⟨file, line, column, endLine, endColumn⟩ ⟨other, _, _, _, _⟩ same
  rw [renamed, renamed, Location.mk.injEq] at same
  rcases same with ⟨files, rfl, rfl, rfl, rfl⟩
  have files : file = other := injective files
  rw [files]

theorem Symbol.renamed_injective : Function.Injective (Symbol.renamed rename) := by
  rintro ⟨name, kind, uri, location⟩ ⟨_, _, other, otherLocation⟩ same
  rw [renamed, renamed, Symbol.mk.injEq] at same
  rcases same with ⟨rfl, rfl, uris, locations⟩
  have uris : uri = other := injective uris
  have locations : location = otherLocation :=
    Option.map_injective (Location.renamed_injective injective) locations
  rw [uris, locations]

theorem SymbolSites.insert_renamed (symbol : Symbol) (sites : List Location)
    (entries : List SymbolSites) :
    insert (symbol.renamed rename) (sites.map (Location.renamed rename))
        (entries.map (SymbolSites.renamed rename)) =
      (insert symbol sites entries).map (SymbolSites.renamed rename) := by
  induction entries with
  | nil => rfl
  | cons entry rest induction =>
      have same : (entry.renamed rename).symbol = symbol.renamed rename ↔ entry.symbol = symbol :=
        (Symbol.renamed_injective injective).eq_iff
      rw [List.map_cons, insert, insert]
      by_cases found : entry.symbol = symbol
      · rw [if_pos (same.mpr found), if_pos found, List.map_cons, renamed, renamed,
          List.map_append]
      · rw [if_neg (found ∘ same.mp), if_neg found, List.map_cons, induction]

theorem References.insert_renamed (symbol : Symbol) (sites : List Location)
    (references : References) :
    insert (symbol.renamed rename) (sites.map (Location.renamed rename))
        (references.renamed rename) =
      (insert symbol sites references).renamed rename := by
  induction references with
  | nil => rfl
  | cons group rest induction =>
      have same : (group.renamed rename).uri = (symbol.renamed rename).moduleUri ↔
          group.uri = symbol.moduleUri := injective.eq_iff
      rw [renamed] at induction ⊢
      rw [List.map_cons, insert, insert]
      by_cases found : group.uri = symbol.moduleUri
      · rw [if_pos (same.mpr found), if_pos found, renamed, List.map_cons]
        simp only [ModuleSites.renamed, SymbolSites.insert_renamed injective]
      · rw [if_neg (found ∘ same.mp), if_neg found, induction]
        rfl

namespace CrawlResult

theorem declaration_renamed (result : CrawlResult) (use : SymbolUse) :
    ((result.renamed rename).declaration (use.renamed rename)).toOption =
      (result.declaration use).toOption.map (Symbol.renamed rename) := by
  have target : (use.renamed rename).request.target = use.request.target.map rename := rfl
  rw [declaration, declaration, target]
  cases use.request.target with
  | none => rfl
  | some uri =>
      simp only [Option.map_some, result.get?_renamed injective]
      cases result.get? uri with
      | none => rfl
      | some record =>
          have lookup :
              (record.renamed rename).module.table.lookup (use.renamed rename).symbol.name =
              (record.module.table.lookup use.symbol.name).map (Symbol.renamed rename) :=
            SymbolTable.lookup_renamed record.module.table use.symbol.name
          simp only [Option.map_some, lookup]
          cases record.module.table.lookup use.symbol.name <;> rfl

theorem collect_renamed (result : CrawlResult) (references : References)
    (uses : List SymbolUse) :
    ((result.renamed rename).collect (references.renamed rename)
        (uses.map (SymbolUse.renamed rename))).toOption =
      (result.collect references uses).toOption.map (References.renamed rename) := by
  induction uses generalizing references with
  | nil => rfl
  | cons use rest induction =>
      rw [List.map_cons, collect, collect]
      rcases eq_ok_or_error_of_toOption_eq (result.declaration_renamed injective use) with
        ⟨symbol, found, otherFound⟩ | ⟨_, _, failed, otherFailed⟩
      · have sites : (use.renamed rename).symbol.sites =
            use.symbol.sites.map (Location.renamed rename) := use.symbol.sites_renamed
        rw [found, otherFound]
        dsimp only
        rw [sites, References.insert_renamed injective, induction]
      · rw [failed, otherFailed]
        rfl

theorem references_renamed (result : CrawlResult) :
    (result.renamed rename).references.toOption =
      result.references.toOption.map (References.renamed rename) := by
  rw [references, references, symbolUses_renamed]
  exact result.collect_renamed injective [] result.symbolUses

end CrawlResult

end

end ServiceModules
