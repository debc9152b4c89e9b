import ServiceModules.Crawl.Result

/-!
References: for every symbol that some module imports, the places that refer to it. Symbols are
grouped by the module that declares them; groups and symbols stand in the order in which they are
first referred to.
-/

namespace ServiceModules

/-- The places that refer to a symbol. -/
structure SymbolSites where
  symbol : Symbol
  sites : List Location
deriving DecidableEq, Repr, Inhabited

structure ModuleSites where
  uri : String
  symbols : List SymbolSites
deriving DecidableEq, Repr, Inhabited

abbrev References := List ModuleSites

namespace SymbolSites

def insert (symbol : Symbol) (sites : List Location) : List SymbolSites → List SymbolSites
  | [] => [⟨symbol, sites⟩]
  | entry :: rest =>
    if entry.symbol = symbol then { entry with sites := entry.sites ++ sites } :: rest
    else entry :: insert symbol sites rest

end SymbolSites

namespace References

def insert (symbol : Symbol) (sites : List Location) : References → References
  | [] => [⟨symbol.moduleUri, [⟨symbol, sites⟩]⟩]
  | group :: rest =>
    if group.uri = symbol.moduleUri then
      { group with symbols := SymbolSites.insert symbol sites group.symbols } :: rest
    else group :: insert symbol sites rest

end References

/-- One imported symbol of one module. -/
structure SymbolUse where
  importer : Module
  request : ImportRequest
  symbol : ImportedSymbol
deriving Repr, Inhabited

namespace Module

def symbolUses (module : Module) : List SymbolUse :=
  module.table.importedSymbols.map fun use => ⟨module, use.1, use.2⟩

end Module

namespace CrawlResult

def symbolUses (result : CrawlResult) : List SymbolUse :=
  result.records.flatMap fun record => record.module.symbolUses

def declaration (result : CrawlResult) (use : SymbolUse) : Except Fault Symbol :=
  match use.request.target with
  | none => .error (.unresolved use.request.path use.importer.uri use.request.location)
  | some target =>
    match result.get? target with
    | none => .error (.absent target use.request.location)
    | some record =>
      match record.module.table.lookup use.symbol.name with
      | some symbol => .ok symbol
      | none =>
        .error
          (.undeclared
            { name := use.symbol.name
              location := use.symbol.location
              moduleUri := record.uri
              path := use.request.path
              declared := Text.sorted record.module.table.declaredNames
              text := use.importer.text })

def collect (result : CrawlResult) (references : References) :
    List SymbolUse → Except Fault References
  | [] => .ok references
  | use :: rest =>
    match result.declaration use with
    | .error fault => .error fault
    | .ok symbol => result.collect (references.insert symbol use.symbol.sites) rest

def references (result : CrawlResult) : Except Fault References :=
  result.collect [] result.symbolUses

end CrawlResult

end ServiceModules
