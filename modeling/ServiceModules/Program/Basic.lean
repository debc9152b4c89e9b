import ServiceModules.ImportPath
import ServiceModules.Source.Position

/-!
Programs of the service language. A module text holds import statements and the declarations of
types, interfaces and services. Every node knows its span; the span of a program is that of its
statements, so a program without statements has none.
-/

namespace ServiceModules

structure TypeReference where
  name : String
  span : Span
deriving DecidableEq, Repr, Inhabited

namespace TypeReference

def builtinNames : List String :=
  ["void", "bool", "int", "long", "double", "string", "raw", "any"]

def isBuiltin (reference : TypeReference) : Bool := reference.name ∈ builtinNames

end TypeReference

mutual
/-- What stands to the right of a colon: a name, or a record written in place. -/
inductive TypeExpression where
  | named (reference : TypeReference)
  | record (fields : List Field) (span : Span)

inductive Field where
  | mk (name : String) (documentation : Option String) (type : TypeExpression) (span : Span)
end

deriving instance Repr for TypeExpression
deriving instance Repr for Field

instance : Inhabited TypeExpression := ⟨.named default⟩
instance : Inhabited Field := ⟨.mk default none default default⟩

namespace TypeExpression

def span : TypeExpression → Span
  | .named reference => reference.span
  | .record _ span => span

end TypeExpression

namespace Field

def name : Field → String
  | .mk name _ _ _ => name

def documentation : Field → Option String
  | .mk _ documentation _ _ => documentation

def type : Field → TypeExpression
  | .mk _ _ type _ => type

def span : Field → Span
  | .mk _ _ _ span => span

end Field

/-- An operation of an interface. Without a response it is one way. -/
structure Operation where
  name : String
  documentation : Option String
  request : Option TypeReference
  response : Option TypeReference
  span : Span
deriving DecidableEq, Repr, Inhabited

namespace Operation

def isOneWay (operation : Operation) : Bool := operation.response.isNone

end Operation

inductive DeclarationKind where
  | type
  | interface
  | service
deriving DecidableEq, Repr, Inhabited

namespace DeclarationKind

def word : DeclarationKind → String
  | .type => "type"
  | .interface => "interface"
  | .service => "service"

end DeclarationKind

inductive DeclarationBody where
  | type (expression : TypeExpression)
  | interface (operations : List Operation)
  | service (embeds : List TypeReference) (implements : List TypeReference)
deriving Repr

structure Declaration where
  name : String
  documentation : Option String
  body : DeclarationBody
  span : Span
deriving Repr

namespace Declaration

def kind (declaration : Declaration) : DeclarationKind :=
  match declaration.body with
  | .type _ => .type
  | .interface _ => .interface
  | .service _ _ => .service

end Declaration

/-- One imported name, perhaps bound to another name in the importing module. -/
structure ImportTarget where
  name : String
  renamed : Option String
  span : Span
deriving DecidableEq, Repr, Inhabited

namespace ImportTarget

/-- The name that the importing module uses. An empty name is none. -/
def localName (target : ImportTarget) : String :=
  (target.renamed.filter (· ≠ "")).getD target.name

end ImportTarget

structure ImportStatement where
  path : ImportPath
  targets : List ImportTarget
  pathSpan : Span
  span : Span
deriving DecidableEq, Repr, Inhabited

inductive Statement where
  | importing (statement : ImportStatement)
  | declaring (declaration : Declaration)
deriving Repr

namespace Statement

def span : Statement → Span
  | .importing statement => statement.span
  | .declaring declaration => declaration.span

def import? : Statement → Option ImportStatement
  | .importing statement => some statement
  | .declaring _ => none

def declaration? : Statement → Option Declaration
  | .importing _ => none
  | .declaring declaration => some declaration

end Statement

structure Program where
  statements : List Statement
deriving Repr

namespace Program

instance : Inhabited Program := ⟨⟨[]⟩⟩

def imports (program : Program) : List ImportStatement :=
  program.statements.filterMap Statement.import?

def declarations (program : Program) : List Declaration :=
  program.statements.filterMap Statement.declaration?

def span (program : Program) : Option Span :=
  match program.statements.head?, program.statements.getLast? with
  | some first, some last => some (first.span.upTo last.span)
  | _, _ => none

end Program

end ServiceModules
