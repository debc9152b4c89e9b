import Mathlib.Logic.Function.Defs
import ServiceModules.Proofs.Program.Table
import ServiceModules.References

/-!
Renaming modules. The identifier of a module occurs in its table, in every location of it, and in
what other modules have bound to it. A text that is read under another identifier gives the same
module but for the identifier.
-/

namespace ServiceModules

theorem eq_ok_or_error_of_toOption_eq {Error Value Other : Type} {map : Value → Other}
    {left : Except Error Value} {right : Except Error Other}
    (same : right.toOption = left.toOption.map map) :
    (∃ value, left = .ok value ∧ right = .ok (map value)) ∨
      ∃ error otherError, left = .error error ∧ right = .error otherError := by
  cases left with
  | error error =>
      cases right with
      | error otherError => exact .inr ⟨error, otherError, rfl, rfl⟩
      | ok other => cases same
  | ok value =>
      cases right with
      | error otherError => cases same
      | ok other =>
          cases same
          exact .inl ⟨value, rfl, rfl⟩

section

variable (rename : String → String)

def Location.renamed (location : Location) : Location :=
  { location with file := rename location.file }

def Symbol.renamed (symbol : Symbol) : Symbol :=
  { symbol with
    moduleUri := rename symbol.moduleUri
    location := symbol.location.map (Location.renamed rename) }

def ImportedSymbol.renamed (symbol : ImportedSymbol) : ImportedSymbol :=
  { symbol with
    location := symbol.location.map (Location.renamed rename)
    usages := symbol.usages.map (Location.renamed rename) }

def ImportRequest.renamed (request : ImportRequest) : ImportRequest :=
  { request with
    symbols := request.symbols.map (ImportedSymbol.renamed rename)
    location := request.location.map (Location.renamed rename)
    target := request.target.map rename }

def SymbolTable.renamed (table : SymbolTable) : SymbolTable where
  uri := rename table.uri
  declared := table.declared.map (Symbol.renamed rename)
  imports := table.imports.map (ImportRequest.renamed rename)

def Module.renamed (module : Module) : Module :=
  { module with uri := rename module.uri, table := module.table.renamed rename }

def ModuleRecord.renamed (record : ModuleRecord) : ModuleRecord :=
  { record with module := record.module.renamed rename }

def ModuleRecord.entryRenamed (entry : String × ModuleRecord) : String × ModuleRecord :=
  (rename entry.1, entry.2.renamed rename)

def ModuleCache.renamed (cache : ModuleCache) : ModuleCache :=
  { cache with entries := cache.entries.map (ModuleRecord.entryRenamed rename) }

def CrawlResult.renamed (result : CrawlResult) : CrawlResult :=
  ⟨result.entries.map (ModuleRecord.entryRenamed rename)⟩

def SymbolSites.renamed (sites : SymbolSites) : SymbolSites where
  symbol := sites.symbol.renamed rename
  sites := sites.sites.map (Location.renamed rename)

def ModuleSites.renamed (group : ModuleSites) : ModuleSites where
  uri := rename group.uri
  symbols := group.symbols.map (SymbolSites.renamed rename)

def References.renamed (references : References) : References :=
  references.map (ModuleSites.renamed rename)

end

/-! ## Reading under another identifier -/

variable {rename : String → String}

theorem Program.usages_renamed (program : Program) (uri name : String) :
    program.usages (rename uri) name = (program.usages uri name).map (Location.renamed rename) := by
  rw [usages, usages, List.map_map]
  rfl

theorem ImportStatement.symbols_renamed (program : Program) (uri : String)
    (statement : ImportStatement) :
    statement.symbols (program.usages (rename uri)) (rename uri) =
      (statement.symbols (program.usages uri) uri).map (ImportedSymbol.renamed rename) := by
  rw [symbols, symbols, List.map_map]
  refine List.map_congr_left fun target _ => ?_
  rw [program.usages_renamed]
  rfl

theorem ImportRequest.insert_renamed (program : Program) (uri : String)
    (statement : ImportStatement) (requests : List ImportRequest) :
    insert (program.usages (rename uri)) (rename uri) statement
        (requests.map (ImportRequest.renamed rename)) =
      (insert (program.usages uri) uri statement requests).map
        (ImportRequest.renamed rename) := by
  induction requests with
  | nil =>
      rw [List.map_nil, insert, insert, ImportStatement.symbols_renamed]
      rfl
  | cons request rest induction =>
      have path : (request.renamed rename).path = request.path := rfl
      rw [List.map_cons, insert, insert, path]
      split
      · rw [ImportStatement.symbols_renamed, List.map_cons, ImportRequest.renamed,
          ImportRequest.renamed, List.map_append]
      · rw [induction, List.map_cons]

theorem Program.requests_renamed (program : Program) (uri : String) :
    program.requests (rename uri) =
      (program.requests uri).map (ImportRequest.renamed rename) := by
  have inserted : ∀ (statements : List ImportStatement) (requests : List ImportRequest),
      statements.foldl (fun requests statement => ImportRequest.insert
          (program.usages (rename uri)) (rename uri) statement requests)
          (requests.map (ImportRequest.renamed rename)) =
        (statements.foldl (fun requests statement => ImportRequest.insert
          (program.usages uri) uri statement requests) requests).map
          (ImportRequest.renamed rename) := by
    intro statements
    induction statements with
    | nil => exact fun _ => rfl
    | cons statement statements induction =>
        intro requests
        rw [List.foldl_cons, List.foldl_cons, ImportRequest.insert_renamed, induction]
  exact inserted program.imports []

theorem Binding.clash?_isSome (uri other : String) (earlier bindings : List Binding) :
    (clash? uri earlier bindings).isSome = (clash? other earlier bindings).isSome := by
  induction bindings generalizing earlier with
  | nil => rfl
  | cons binding rest induction =>
      rw [clash?, clash?]
      cases earlier.find? fun previous => previous.name = binding.name with
      | some previous => rfl
      | none => exact induction _

theorem Program.symbolTable_renamed (program : Program) (uri : String) :
    (program.symbolTable (rename uri)).toOption =
      (program.symbolTable uri).toOption.map (SymbolTable.renamed rename) := by
  have clashes := Binding.clash?_isSome (rename uri) uri [] program.bindings
  rw [symbolTable, symbolTable]
  cases clash : Binding.clash? uri [] program.bindings with
  | some _ =>
      rw [clash] at clashes
      rcases Option.isSome_iff_exists.mp clashes with ⟨_, renamed⟩
      rw [renamed]
      rfl
  | none =>
      have clear : Binding.clash? (rename uri) [] program.bindings = none := by
        rw [clash] at clashes
        exact Option.not_isSome_iff_eq_none.mp (by rw [clashes]; exact Bool.false_ne_true)
      rw [clear]
      simp only [Except.toOption, Option.map_some, SymbolTable.renamed, requests_renamed,
        List.map_map]
      rfl

theorem Module.ofText_renamed (keepsDocumentation : Bool) (uri text : String) :
    (ofText keepsDocumentation (rename uri) text).toOption =
      (ofText keepsDocumentation uri text).toOption.map (Module.renamed rename) := by
  rw [ofText, ofText, Program.ofText_eq_parse, Program.ofText_eq_parse]
  cases Program.parse text with
  | error rejection => rfl
  | ok program =>
      dsimp only
      generalize (if keepsDocumentation = true then program
        else program.withoutDocumentation) = read
      rcases eq_ok_or_error_of_toOption_eq (@Program.symbolTable_renamed rename read uri) with
        ⟨table, made, otherMade⟩ | ⟨clash, otherClash, failed, otherFailed⟩
      · rw [made, otherMade]
        rfl
      · rw [failed, otherFailed]
        rfl

theorem Module.ofBytes_renamed (configuration : Configuration) (uri : String) (bytes : Bytes) :
    (ofBytes configuration (rename uri) bytes).toOption =
      (ofBytes configuration uri bytes).toOption.map (Module.renamed rename) := by
  rw [ofBytes, ofBytes]
  cases Charset.decodeNamed configuration.charset bytes with
  | error fault => cases fault <;> rfl
  | ok text => exact ofText_renamed configuration.keepsDocumentation uri text

/-! ## Looking up under another identifier -/

section

variable (injective : Function.Injective rename)
include injective

theorem ModuleRecord.lookup_renamed (entries : List (String × ModuleRecord)) (uri : String) :
    (entries.map (entryRenamed rename)).lookup (rename uri) =
      (entries.lookup uri).map (ModuleRecord.renamed rename) := by
  induction entries with
  | nil => rfl
  | cons entry rest induction =>
      rw [List.map_cons, List.lookup_cons, List.lookup_cons, induction]
      by_cases same : uri = entry.1
      · rw [same, entryRenamed, beq_self_eq_true, beq_self_eq_true]
        rfl
      · have different : rename uri ≠ rename entry.1 := fun equal => same (injective equal)
        rw [entryRenamed, beq_eq_false_iff_ne.mpr different, beq_eq_false_iff_ne.mpr same]

theorem ModuleCache.get?_renamed (cache : ModuleCache) (uri : String) :
    (cache.renamed rename).get? (rename uri) =
      (cache.get? uri).map (ModuleRecord.renamed rename) :=
  ModuleRecord.lookup_renamed injective cache.entries uri

theorem CrawlResult.get?_renamed (result : CrawlResult) (uri : String) :
    (result.renamed rename).get? (rename uri) =
      (result.get? uri).map (ModuleRecord.renamed rename) :=
  ModuleRecord.lookup_renamed injective result.entries uri

theorem CrawlResult.contains_renamed (result : CrawlResult) (uri : String) :
    (result.renamed rename).contains (rename uri) = result.contains uri := by
  rw [contains, contains, result.get?_renamed injective, Option.isSome_map]

theorem CrawlResult.insert_renamed (result : CrawlResult) (record : ModuleRecord) :
    (result.insert record).renamed rename =
      (result.renamed rename).insert (record.renamed rename) := by
  have inserted : ∀ entries : List (String × ModuleRecord),
      (insertInto record entries).map (ModuleRecord.entryRenamed rename) =
        insertInto (record.renamed rename)
          (entries.map (ModuleRecord.entryRenamed rename)) := by
    intro entries
    induction entries with
    | nil => rfl
    | cons entry rest induction =>
        have same : (ModuleRecord.entryRenamed rename entry).1 = (record.renamed rename).uri ↔
            entry.1 = record.uri := injective.eq_iff
        rw [insertInto, List.map_cons, insertInto, apply_ite (List.map _)]
        simp only [same, List.map_cons, induction]
        rfl
  exact congrArg CrawlResult.mk (inserted result.entries)

theorem ModuleCache.insertIfNew_renamed (cache : ModuleCache) (record : ModuleRecord) :
    ((cache.renamed rename).insertIfNew (record.renamed rename)).2 =
      ((cache.insertIfNew record).2).renamed rename := by
  have uri : (record.renamed rename).uri = rename record.uri := rfl
  rw [insertIfNew, insertIfNew, uri, cache.get?_renamed injective]
  cases cache.get? record.uri with
  | some kept => rfl
  | none =>
      simp only [Option.map_none, renamed, List.map_append, List.map_cons, List.map_nil]
      rfl

end

end ServiceModules
