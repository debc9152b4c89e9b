import ServiceModules.Symbol.Basic
import ServiceModules.Text.Sorted

/-!
Symbol tables. A table holds what one module declares, every name once, and its import requests.
It only grows: a declared name keeps its symbol, a request keeps its place, and a target that is
bound once stays bound.
-/

namespace ServiceModules

structure SymbolTable where
  uri : String
  declared : List Symbol
  imports : List ImportRequest
deriving DecidableEq, Repr, Inhabited

inductive BindFault where
  | noSuchRequest
  /-- The request is bound to another module. -/
  | bound (path : ImportPath) (uri target : String)
deriving DecidableEq, Repr, Inhabited

namespace BindFault

def message : BindFault → String
  | .noSuchRequest => "list index out of range"
  | .bound path uri target =>
    "Import '" ++ path.text ++ "' in " ++ uri ++ " already resolved to " ++ target

end BindFault

namespace SymbolTable

def empty (uri : String) : SymbolTable := ⟨uri, [], []⟩

def lookup (table : SymbolTable) (name : String) : Option Symbol :=
  table.declared.find? fun symbol => symbol.name = name

def addImport (table : SymbolTable) (request : ImportRequest) : SymbolTable :=
  { table with imports := table.imports ++ [request] }

/-- The place of a request; negative numbers count from the end. -/
def requestPlace (table : SymbolTable) (index : Int) : Option Nat :=
  let place := if index < 0 then index + table.imports.length else index
  if 0 ≤ place && place < table.imports.length then some place.toNat else none

def resolvedImports (table : SymbolTable) : List ImportRequest :=
  table.imports.filter ImportRequest.isResolved

def unresolvedImports (table : SymbolTable) : List ImportRequest :=
  table.imports.filter fun request => !request.isResolved

def isFullyResolved (table : SymbolTable) : Bool := table.imports.all ImportRequest.isResolved

def importedSymbols (table : SymbolTable) : List (ImportRequest × ImportedSymbol) :=
  table.imports.flatMap fun request => request.symbols.map fun symbol => (request, symbol)

def dependencies (table : SymbolTable) : List String :=
  table.imports.filterMap ImportRequest.target

def declaredNames (table : SymbolTable) : List String := table.declared.map Symbol.name

def describe (table : SymbolTable) : String :=
  "SymbolTable(" ++ table.uri ++ ", declared=" ++ Text.quotedList (Text.sorted table.declaredNames)
    ++ ", imports=" ++ Text.quotedList (table.imports.map fun request => request.path.text) ++ ")"

end SymbolTable

end ServiceModules
