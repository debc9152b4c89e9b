import ServiceModules.Symbol.Table

/-!
Calls on a symbol table that is changed in place. A call reads the table, and it writes the table
or refuses. The programs are written in the order in which they read and write, so that whatever
is written before a refusal stays written.
-/

namespace ServiceModules

namespace SymbolTable

inductive Call where
  | declare (symbol : Symbol)
  | lookup (name : String)
  | addImport (request : ImportRequest)
  | resolveImport (index : Int) (target : String)
deriving DecidableEq, Repr, Inhabited

inductive Answer where
  | done
  | symbol (found : Option Symbol)
  | request (request : ImportRequest)
deriving DecidableEq, Repr, Inhabited

inductive CallFault where
  | duplicate (clash : NameClash)
  | unbound (fault : BindFault)
deriving DecidableEq, Repr, Inhabited

/-- A program that changes a table. -/
abbrev InPlace (fault : Type) := ExceptT fault (StateM SymbolTable)

namespace InPlace

def declare (symbol : Symbol) : InPlace NameClash Unit := do
  match (← get).lookup symbol.name with
  | some previous => throw ⟨symbol.name, symbol.location, previous.location⟩
  | none => modify fun table => { table with declared := table.declared ++ [symbol] }

def lookup (name : String) : InPlace CallFault (Option Symbol) := return (← get).lookup name

def addImport (request : ImportRequest) : InPlace CallFault Unit :=
  modify fun table => table.addImport request

/-- Binds a request to a module. Binding it again to the same module changes nothing. -/
def resolveImport (index : Int) (target : String) : InPlace BindFault ImportRequest := do
  let table ← get
  match table.requestPlace index with
  | none => throw .noSuchRequest
  | some place =>
    match table.imports[place]? with
    | none => throw .noSuchRequest
    | some request =>
      match request.target with
      | some bound =>
        if bound = target then return request
        else throw (.bound request.path table.uri bound)
      | none =>
        let resolved := request.bind target
        modify fun table => { table with imports := table.imports.set place resolved }
        return resolved

def resolveFrom (index : Nat) : List (Option String) → InPlace BindFault Unit
  | [] => return
  | none :: rest => resolveFrom (index + 1) rest
  | some target :: rest => do
    discard (resolveImport index target)
    resolveFrom (index + 1) rest

end InPlace

namespace Call

def program : Call → InPlace CallFault Answer
  | .declare symbol => ((fun _ => .done) <$> InPlace.declare symbol).adapt .duplicate
  | .lookup name => .symbol <$> InPlace.lookup name
  | .addImport request => (fun _ => .done) <$> InPlace.addImport request
  | .resolveImport index target => (.request <$> InPlace.resolveImport index target).adapt .unbound

def perform (call : Call) (table : SymbolTable) : Except CallFault Answer × SymbolTable :=
  call.program.run.run table

end Call

def after (table : SymbolTable) (calls : List Call) : SymbolTable :=
  calls.foldl (fun reached call => (call.perform reached).2) table

end SymbolTable

end ServiceModules
