import ServiceModules.Program.Node
import ServiceModules.Symbol.Table

/-!
The symbol table of a program. A program binds names: first its declarations, then the local names
of its import targets, both in the order of the text. No name may be bound twice. Import statements
with one path share one request, and every imported symbol collects the places in the declarations
that refer to its local name.
-/

namespace ServiceModules

structure Binding where
  name : String
  span : Span
deriving DecidableEq, Repr, Inhabited

namespace Declaration

def binding (declaration : Declaration) : Binding := ⟨declaration.name, declaration.span⟩

def references (declaration : Declaration) : List TypeReference :=
  declaration.nodes.filterMap Node.reference?

def symbol (uri : String) (declaration : Declaration) : Symbol :=
  ⟨declaration.name, declaration.kind, uri, some (.ofSpan uri declaration.span)⟩

end Declaration

namespace ImportTarget

def binding (target : ImportTarget) : Binding := ⟨target.localName, target.span⟩

end ImportTarget

namespace Program

def targets (program : Program) : List ImportTarget :=
  program.imports.flatMap ImportStatement.targets

def bindings (program : Program) : List Binding :=
  program.declarations.map Declaration.binding ++ program.targets.map ImportTarget.binding

def references (program : Program) : List TypeReference :=
  (program.declarations.flatMap Declaration.references).filter fun reference =>
    !reference.isBuiltin

def usages (program : Program) (uri name : String) : List Location :=
  (program.references.filter fun reference => reference.name = name).map fun reference =>
    .ofSpan uri reference.span

end Program

/-- The first binding whose name an earlier binding has, the bindings in `earlier` included. -/
def Binding.clash? (uri : String) (earlier : List Binding) : List Binding → Option NameClash
  | [] => none
  | binding :: rest =>
    match earlier.find? fun previous => previous.name = binding.name with
    | some previous =>
      some ⟨binding.name, some (.ofSpan uri binding.span), some (.ofSpan uri previous.span)⟩
    | none => clash? uri (earlier ++ [binding]) rest

namespace ImportStatement

def symbols (usages : String → List Location) (uri : String) (statement : ImportStatement) :
    List ImportedSymbol :=
  statement.targets.map fun target =>
    ⟨target.name, target.localName, some (.ofSpan uri target.span), usages target.localName⟩

end ImportStatement

namespace ImportRequest

/-- Adds the symbols of a statement to the request with its path, or a request behind all others
when no request has that path. -/
def insert (usages : String → List Location) (uri : String) (statement : ImportStatement) :
    List ImportRequest → List ImportRequest
  | [] =>
    [{ path := statement.path
       symbols := statement.symbols usages uri
       location := some (.ofSpan uri statement.pathSpan)
       target := none }]
  | request :: rest =>
    if request.path = statement.path then
      { request with symbols := request.symbols ++ statement.symbols usages uri } :: rest
    else request :: insert usages uri statement rest

end ImportRequest

namespace Program

def requests (program : Program) (uri : String) : List ImportRequest :=
  program.imports.foldl
    (fun requests statement => ImportRequest.insert (program.usages uri) uri statement requests) []

def symbolTable (program : Program) (uri : String) : Except NameClash SymbolTable :=
  match Binding.clash? uri [] program.bindings with
  | some clash => .error clash
  | none =>
    .ok ⟨uri, program.declarations.map (Declaration.symbol uri), program.requests uri⟩

end Program

end ServiceModules
