import ServiceModules.Program.Basic
import ServiceModules.Text.Quoted

/-!
The nodes of a program in the order of a walk: every node stands before the nodes below it, and
nodes below one node stand as they are written, except that a service lists the names that it
embeds before those that it implements.
-/

namespace ServiceModules

inductive Node where
  | ofProgram (program : Program)
  | ofImport (statement : ImportStatement)
  | ofTarget (target : ImportTarget)
  | ofDeclaration (declaration : Declaration)
  | ofOperation (operation : Operation)
  | ofReference (reference : TypeReference)
  | ofRecord (fields : List Field) (span : Span)
  | ofField (field : Field)
deriving Repr

mutual
def TypeExpression.nodes : TypeExpression → List Node
  | .named reference => [.ofReference reference]
  | .record fields span => .ofRecord fields span :: Field.listNodes fields

def Field.nodes : Field → List Node
  | .mk name documentation type span => .ofField (.mk name documentation type span) :: type.nodes

def Field.listNodes : List Field → List Node
  | [] => []
  | field :: rest => field.nodes ++ Field.listNodes rest
end

namespace Operation

def references (operation : Operation) : List TypeReference :=
  operation.request.toList ++ operation.response.toList

end Operation

def DeclarationBody.nodes : DeclarationBody → List Node
  | .type expression => expression.nodes
  | .interface operations =>
    operations.flatMap fun operation =>
      .ofOperation operation :: operation.references.map .ofReference
  | .service embeds implements => (embeds ++ implements).map .ofReference

def Declaration.nodes (declaration : Declaration) : List Node :=
  .ofDeclaration declaration :: declaration.body.nodes

def Statement.nodes : Statement → List Node
  | .importing statement => .ofImport statement :: statement.targets.map .ofTarget
  | .declaring declaration => declaration.nodes

def Program.nodes (program : Program) : List Node :=
  .ofProgram program :: program.statements.flatMap Statement.nodes

namespace Node

def reference? : Node → Option TypeReference
  | .ofReference reference => some reference
  | _ => none

def span? : Node → Option Span
  | .ofProgram program => program.span
  | .ofImport statement => some statement.span
  | .ofTarget target => some target.span
  | .ofDeclaration declaration => some declaration.span
  | .ofOperation operation => some operation.span
  | .ofReference reference => some reference.span
  | .ofRecord _ span => some span
  | .ofField field => some field.span

def label : Node → String
  | .ofProgram _ => "program"
  | .ofImport _ => "import_stmt"
  | .ofTarget _ => "import_target"
  | .ofDeclaration declaration => declaration.kind.word ++ "_decl"
  | .ofOperation _ => "operation"
  | .ofReference _ => "type_ref"
  | .ofRecord _ _ => "record_type"
  | .ofField _ => "field"

def name? : Node → Option String
  | .ofProgram _ => none
  | .ofImport _ => none
  | .ofTarget target => some target.name
  | .ofDeclaration declaration => some declaration.name
  | .ofOperation operation => some operation.name
  | .ofReference reference => some reference.name
  | .ofRecord _ _ => none
  | .ofField field => some field.name

end Node

/-! Short descriptions of the nodes that name something of another module. -/

def TypeReference.describe (reference : TypeReference) : String :=
  "TypeReference(" ++ String.ofList (Text.quoted reference.name.toList) ++ ")"

def ImportTarget.describe (target : ImportTarget) : String :=
  match target.renamed with
  | some renamed => "ImportTarget(" ++ target.name ++ " as " ++ renamed ++ ")"
  | none => "ImportTarget(" ++ target.name ++ ")"

def ImportStatement.describe (statement : ImportStatement) : String :=
  "ImportStatement(from " ++ statement.path.text ++ " import "
    ++ ", ".intercalate (statement.targets.map ImportTarget.localName) ++ ")"

def Node.description? : Node → Option String
  | .ofImport statement => some statement.describe
  | .ofTarget target => some target.describe
  | .ofReference reference => some reference.describe
  | _ => none

end ServiceModules
