import ServiceModules.Program.Basic
import ServiceModules.Token.Terminal

/-!
Unfinished programs. A draft is what has been read of a program after some of its tokens: the
finished statements and, unless the text may stop between two statements, a fragment of the next
one. A fragment says where in the statement the reading stands and holds all that was read.
-/

namespace ServiceModules

/-! Documentation comments that stand before their owner. Each line loses its three slashes and
one blank behind them. -/

structure Documentation where
  lines : List (List Char)
  start : Position
deriving DecidableEq, Repr, Inhabited

namespace Documentation

def lineOf (comment : List Char) : List Char :=
  match comment.drop 3 with
  | ' ' :: rest => rest
  | rest => rest

def ofToken (token : Token) : Documentation := ⟨[lineOf token.text], token.span.start⟩

def add (documentation : Documentation) (token : Token) : Documentation :=
  { documentation with lines := documentation.lines ++ [lineOf token.text] }

def text (documentation : Documentation) : String :=
  String.ofList (List.intercalate ['\n'] documentation.lines)

/-- The terminals that can follow documentation somewhere in a program. -/
def followers : List Terminal := [.docComment, .interfaceWord, .name, .serviceWord, .typeWord]

end Documentation

/-! The beginning of a declaration, a field or an operation. -/

structure Heading where
  documentation : Option String
  start : Position
deriving DecidableEq, Repr, Inhabited

namespace Heading

def plain (token : Token) : Heading := ⟨none, token.span.start⟩

/-- A heading behind documentation, which is dropped here unless it is kept. -/
def documented (documentation : Documentation) (keepsDocumentation : Bool := true) : Heading :=
  ⟨if keepsDocumentation then some documentation.text else none, documentation.start⟩

theorem documented_kept (documentation : Documentation) :
    documented documentation = ⟨some documentation.text, documentation.start⟩ := rfl

end Heading

structure NamedHeading extends Heading where
  name : String
deriving DecidableEq, Repr, Inhabited

namespace Heading

def named (heading : Heading) (token : Token) : NamedHeading := ⟨heading, token.string⟩

end Heading

namespace TypeReference

def ofToken (token : Token) : TypeReference := ⟨token.string, token.span⟩

end TypeReference

/-! Import statements. A clause is the statement up to its last target. -/

structure ImportClause where
  start : Position
  path : ImportPath
  pathSpan : Span
  targets : List ImportTarget
deriving DecidableEq, Repr, Inhabited

namespace ImportClause

def add (clause : ImportClause) (target : ImportTarget) : ImportClause :=
  { clause with targets := clause.targets ++ [target] }

def statement (clause : ImportClause) (last : ImportTarget) : ImportStatement :=
  { path := clause.path
    targets := clause.targets ++ [last]
    pathSpan := clause.pathSpan
    span := ⟨clause.start, last.span.stop⟩ }

end ImportClause

inductive ImportFragment where
  | afterFrom (start : Position)
  | afterPath (start : Position) (path : ImportPath) (span : Span)
  | beforeTarget (clause : ImportClause)
  | afterTarget (clause : ImportClause) (last : ImportTarget)
  | afterAs (clause : ImportClause) (last : ImportTarget)
  | afterRenaming (clause : ImportClause) (last : ImportTarget)
deriving DecidableEq, Repr

/-! Records. An open record knows what it is the type of, all the way out to a declaration. -/

inductive OpenRecord where
  | ofDeclaration (declared : NamedHeading) (start : Position) (fields : List Field)
  | ofField (outer : OpenRecord) (field : NamedHeading) (start : Position) (fields : List Field)
deriving Repr

namespace OpenRecord

def add : OpenRecord → Field → OpenRecord
  | .ofDeclaration declared start fields, field => .ofDeclaration declared start (fields ++ [field])
  | .ofField outer owner start fields, field => .ofField outer owner start (fields ++ [field])

def addTyped (record : OpenRecord) (field : NamedHeading) (type : TypeExpression) : OpenRecord :=
  record.add (.mk field.name field.documentation type ⟨field.start, type.span.stop⟩)

end OpenRecord

namespace NamedHeading

def declare (heading : NamedHeading) (body : DeclarationBody) (stop : Position) : Declaration :=
  { name := heading.name
    documentation := heading.documentation
    body := body
    span := ⟨heading.start, stop⟩ }

def operation (heading : NamedHeading) (request response : Option TypeReference)
    (stop : Position) : Operation :=
  { name := heading.name
    documentation := heading.documentation
    request := request
    response := response
    span := ⟨heading.start, stop⟩ }

end NamedHeading

/-! Places in the body of a record, an interface and a service. A place behind a complete member
is a place before the next one, except where a comma or a response may still follow. -/

inductive RecordPlace where
  | beforeField
  | afterDocumentation (documentation : Documentation)
  | afterName (field : NamedHeading)
  | afterColon (field : NamedHeading)
deriving DecidableEq, Repr

inductive InterfacePlace where
  | beforeOperation
  | afterDocumentation (documentation : Documentation)
  | afterName (operation : NamedHeading)
  | inRequest (operation : NamedHeading)
  | afterRequestType (operation : NamedHeading) (request : TypeReference)
  | afterRequest (operation : NamedHeading) (request : Option TypeReference) (stop : Position)
  | afterArrow (operation : NamedHeading) (request : Option TypeReference)
deriving DecidableEq, Repr

inductive ServicePlace where
  | beforeItem
  | afterEmbeds
  | afterEmbedded
  | beforeImplemented
  | afterImplemented
deriving DecidableEq, Repr

/-! A fragment is called after the last token of the statement, or after the body it stands in.
`synonym` is a type declaration that gives another name to a type, and `ended` a declaration that
ended with its closing brace. -/

inductive Fragment where
  | importing (fragment : ImportFragment)
  | afterDocumentation (documentation : Documentation)
  | afterWord (kind : DeclarationKind) (heading : Heading)
  | afterName (kind : DeclarationKind) (declared : NamedHeading)
  | afterColon (declared : NamedHeading)
  | synonym (declared : NamedHeading) (reference : TypeReference)
  | inRecord (record : OpenRecord) (place : RecordPlace)
  | inInterface (declared : NamedHeading) (operations : List Operation) (place : InterfacePlace)
  | inService (declared : NamedHeading) (embeds implements : List TypeReference)
      (place : ServicePlace)
  | ended (declaration : Declaration)
deriving Repr

structure Draft where
  finished : List Statement
  current : Option Fragment
deriving Repr

namespace Draft

def empty : Draft := ⟨[], none⟩

end Draft

end ServiceModules
