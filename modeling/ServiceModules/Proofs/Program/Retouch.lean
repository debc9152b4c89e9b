import ServiceModules.Proofs.Program.Documentation
import ServiceModules.Program.Node

/-!
Retouching a program: every place is moved, and a line may be put before the documentation of what
begins at a given place. Erasing all places is a retouch, and so is documenting one member.
-/

namespace ServiceModules

/-- Where all that begins at a place begins afterwards, and where all that ends there ends. -/
structure Displacement where
  start : Position → Position
  stop : Position → Position

namespace Displacement

def uniform (place : Position → Position) : Displacement := ⟨place, place⟩

protected def id : Displacement := uniform fun place => place

end Displacement

structure Retouch extends Displacement where
  /-- The line that is put before the documentation of what begins at this place. -/
  line? : Position → Option String

namespace Retouch

/-- All places become one, and the lines are put before the documentation of what begins at their
places. -/
def levelling (line? : Position → Option String) : Retouch := ⟨.uniform fun _ => default, line?⟩

/-- All places become one, and no documentation changes. -/
def erasing : Retouch := levelling fun _ => none

/-- Nothing moves, and the line is put before the documentation of what begins at `start`. -/
def documenting (start : Position) (line : String) : Retouch :=
  ⟨.id, fun place => if place = start then some line else none⟩

theorem line?_documenting_self (start : Position) (line : String) :
    (documenting start line).line? start = some line := if_pos rfl

theorem line?_documenting_of_ne {start place : Position} (other : place ≠ start) (line : String) :
    (documenting start line).line? place = none := if_neg other

def documentation (retouch : Retouch) (start : Position) (documentation : Option String) :
    Option String :=
  match retouch.line? start with
  | none => documentation
  | some line => some ((documentation.map fun text => line ++ "\n" ++ text).getD line)

end Retouch

def Span.retouch (retouch : Retouch) (span : Span) : Span :=
  ⟨retouch.start span.start, retouch.stop span.stop⟩

def TypeReference.retouch (retouch : Retouch) (reference : TypeReference) : TypeReference :=
  { reference with span := reference.span.retouch retouch }

mutual
def TypeExpression.retouch (retouch : Retouch) : TypeExpression → TypeExpression
  | .named reference => .named (reference.retouch retouch)
  | .record fields span => .record (Field.listRetouch retouch fields) (span.retouch retouch)

def Field.retouch (retouch : Retouch) : Field → Field
  | .mk name documentation type span =>
    .mk name (retouch.documentation span.start documentation) (type.retouch retouch)
      (span.retouch retouch)

def Field.listRetouch (retouch : Retouch) : List Field → List Field
  | [] => []
  | field :: rest => field.retouch retouch :: Field.listRetouch retouch rest
end

theorem Field.listRetouch_eq_map (retouch : Retouch) (fields : List Field) :
    Field.listRetouch retouch fields = fields.map (Field.retouch retouch) := by
  induction fields with
  | nil => rfl
  | cons field rest induction => rw [Field.listRetouch, induction, List.map_cons]

def Operation.retouch (retouch : Retouch) (operation : Operation) : Operation :=
  { name := operation.name
    documentation := retouch.documentation operation.span.start operation.documentation
    request := operation.request.map (TypeReference.retouch retouch)
    response := operation.response.map (TypeReference.retouch retouch)
    span := operation.span.retouch retouch }

def DeclarationBody.retouch (retouch : Retouch) : DeclarationBody → DeclarationBody
  | .type expression => .type (expression.retouch retouch)
  | .interface operations => .interface (operations.map (Operation.retouch retouch))
  | .service embeds implements =>
    .service (embeds.map (TypeReference.retouch retouch))
      (implements.map (TypeReference.retouch retouch))

def Declaration.retouch (retouch : Retouch) (declaration : Declaration) : Declaration :=
  { name := declaration.name
    documentation := retouch.documentation declaration.span.start declaration.documentation
    body := declaration.body.retouch retouch
    span := declaration.span.retouch retouch }

def ImportTarget.retouch (retouch : Retouch) (target : ImportTarget) : ImportTarget :=
  { target with span := target.span.retouch retouch }

def ImportStatement.retouch (retouch : Retouch) (statement : ImportStatement) : ImportStatement :=
  { path := statement.path
    targets := statement.targets.map (ImportTarget.retouch retouch)
    pathSpan := statement.pathSpan.retouch retouch
    span := statement.span.retouch retouch }

def Statement.retouch (retouch : Retouch) : Statement → Statement
  | .importing statement => .importing (statement.retouch retouch)
  | .declaring declaration => .declaring (declaration.retouch retouch)

namespace Program

def retouch (retouch : Retouch) (program : Program) : Program :=
  ⟨program.statements.map (Statement.retouch retouch)⟩

def withoutPlaces (program : Program) : Program := program.retouch .erasing

def documenting (start : Position) (line : String) (program : Program) : Program :=
  program.retouch (.documenting start line)

end Program

/-! ## Erasing the places after a retouch -/

theorem TypeReference.erasing_retouch (retouch : Retouch) (reference : TypeReference) :
    (reference.retouch retouch).retouch .erasing =
      reference.retouch (.levelling retouch.line?) := rfl

mutual
theorem TypeExpression.erasing_retouch (retouch : Retouch) (expression : TypeExpression) :
    (expression.retouch retouch).retouch .erasing =
      expression.retouch (.levelling retouch.line?) := by
  cases expression with
  | named reference => rfl
  | record fields span =>
      rw [TypeExpression.retouch, TypeExpression.retouch, TypeExpression.retouch,
        Field.listErasing_retouch retouch fields]
      rfl

theorem Field.erasing_retouch (retouch : Retouch) (field : Field) :
    (field.retouch retouch).retouch .erasing = field.retouch (.levelling retouch.line?) := by
  cases field with
  | mk name documentation type span =>
      rw [Field.retouch, Field.retouch, Field.retouch, TypeExpression.erasing_retouch retouch type]
      rfl

theorem Field.listErasing_retouch (retouch : Retouch) (fields : List Field) :
    Field.listRetouch .erasing (Field.listRetouch retouch fields) =
      Field.listRetouch (.levelling retouch.line?) fields := by
  cases fields with
  | nil => rfl
  | cons field rest =>
      rw [Field.listRetouch, Field.listRetouch, Field.listRetouch,
        Field.erasing_retouch retouch field, Field.listErasing_retouch retouch rest]
end

theorem Operation.erasing_retouch (retouch : Retouch) (operation : Operation) :
    (operation.retouch retouch).retouch .erasing =
      operation.retouch (.levelling retouch.line?) := by
  rcases operation with ⟨name, documentation, request, response, span⟩
  cases request <;> cases response <;> rfl

theorem DeclarationBody.erasing_retouch (retouch : Retouch) (body : DeclarationBody) :
    (body.retouch retouch).retouch .erasing = body.retouch (.levelling retouch.line?) := by
  cases body with
  | type expression =>
      exact congrArg DeclarationBody.type (expression.erasing_retouch retouch)
  | interface operations =>
      simp only [DeclarationBody.retouch, List.map_map, Function.comp_def,
        Operation.erasing_retouch]
  | service embeds implements =>
      simp only [DeclarationBody.retouch, List.map_map, Function.comp_def,
        TypeReference.erasing_retouch]

theorem Statement.erasing_retouch (retouch : Retouch) (statement : Statement) :
    (statement.retouch retouch).retouch .erasing =
      statement.retouch (.levelling retouch.line?) := by
  cases statement with
  | importing statement =>
      simp only [Statement.retouch, ImportStatement.retouch, List.map_map, Function.comp_def]
      rfl
  | declaring declaration =>
      simp only [Statement.retouch, Declaration.retouch, DeclarationBody.erasing_retouch]
      rfl

namespace Program

theorem withoutPlaces_retouch (change : Retouch) (program : Program) :
    (program.retouch change).withoutPlaces = program.retouch (.levelling change.line?) := by
  simp only [withoutPlaces, retouch, List.map_map, Function.comp_def, Statement.erasing_retouch]

end Program

/-! ## Erasing documentation after a retouch -/

/-- The same places, and no lines. -/
def Retouch.quiet (retouch : Retouch) : Retouch := ⟨retouch.toDisplacement, fun _ => none⟩

mutual
theorem TypeExpression.withoutDocumentation_retouch (retouch : Retouch)
    (expression : TypeExpression) :
    (expression.retouch retouch).withoutDocumentation =
      expression.withoutDocumentation.retouch retouch.quiet := by
  cases expression with
  | named reference => rfl
  | record fields span =>
      rw [TypeExpression.retouch, TypeExpression.withoutDocumentation,
        TypeExpression.withoutDocumentation, TypeExpression.retouch,
        Field.listWithoutDocumentation_retouch retouch fields]
      rfl

theorem Field.withoutDocumentation_retouch (retouch : Retouch) (field : Field) :
    (field.retouch retouch).withoutDocumentation =
      field.withoutDocumentation.retouch retouch.quiet := by
  cases field with
  | mk name documentation type span =>
      rw [Field.retouch, Field.withoutDocumentation, Field.withoutDocumentation, Field.retouch,
        TypeExpression.withoutDocumentation_retouch retouch type]
      rfl

theorem Field.listWithoutDocumentation_retouch (retouch : Retouch) (fields : List Field) :
    Field.listWithoutDocumentation (Field.listRetouch retouch fields) =
      Field.listRetouch retouch.quiet (Field.listWithoutDocumentation fields) := by
  cases fields with
  | nil => rfl
  | cons field rest =>
      rw [Field.listRetouch, Field.listWithoutDocumentation, Field.listWithoutDocumentation,
        Field.listRetouch, Field.withoutDocumentation_retouch retouch field,
        Field.listWithoutDocumentation_retouch retouch rest]
end

theorem DeclarationBody.withoutDocumentation_retouch (retouch : Retouch)
    (body : DeclarationBody) :
    (body.retouch retouch).withoutDocumentation =
      body.withoutDocumentation.retouch retouch.quiet := by
  cases body with
  | type expression =>
      exact congrArg DeclarationBody.type (expression.withoutDocumentation_retouch retouch)
  | interface operations =>
      simp only [DeclarationBody.retouch, DeclarationBody.withoutDocumentation, List.map_map]
      rfl
  | service embeds implements => rfl

theorem Statement.withoutDocumentation_retouch (retouch : Retouch) (statement : Statement) :
    (statement.retouch retouch).withoutDocumentation =
      statement.withoutDocumentation.retouch retouch.quiet := by
  cases statement with
  | importing statement => rfl
  | declaring declaration =>
      simp only [Statement.retouch, Statement.withoutDocumentation, Declaration.retouch,
        Declaration.withoutDocumentation, DeclarationBody.withoutDocumentation_retouch]
      rfl

theorem Program.withoutDocumentation_retouch (change : Retouch) (program : Program) :
    (program.retouch change).withoutDocumentation =
      program.withoutDocumentation.retouch change.quiet := by
  simp only [Program.retouch, Program.withoutDocumentation, List.map_map, Function.comp_def,
    Statement.withoutDocumentation_retouch]

/-! ## The nodes of a retouched program -/

def Node.retouch (retouch : Retouch) : Node → Node
  | .ofProgram program => .ofProgram (program.retouch retouch)
  | .ofImport statement => .ofImport (statement.retouch retouch)
  | .ofTarget target => .ofTarget (target.retouch retouch)
  | .ofDeclaration declaration => .ofDeclaration (declaration.retouch retouch)
  | .ofOperation operation => .ofOperation (operation.retouch retouch)
  | .ofReference reference => .ofReference (reference.retouch retouch)
  | .ofRecord fields span => .ofRecord (fields.map (Field.retouch retouch)) (span.retouch retouch)
  | .ofField field => .ofField (field.retouch retouch)

mutual
theorem TypeExpression.nodes_retouch (change : Retouch) : ∀ expression : TypeExpression,
    (expression.retouch change).nodes = expression.nodes.map (Node.retouch change)
  | .named reference => by
      simp only [TypeExpression.retouch, TypeExpression.nodes, List.map_cons, List.map_nil,
        Node.retouch]
  | .record fields span => by
      rw [TypeExpression.retouch, TypeExpression.nodes, TypeExpression.nodes, List.map_cons,
        Field.listNodes_retouch change fields, Node.retouch, Field.listRetouch_eq_map]

theorem Field.nodes_retouch (change : Retouch) : ∀ field : Field,
    (field.retouch change).nodes = field.nodes.map (Node.retouch change)
  | .mk name documentation type span => by
      rw [Field.retouch, Field.nodes, Field.nodes, List.map_cons,
        TypeExpression.nodes_retouch change type, Node.retouch, Field.retouch]

theorem Field.listNodes_retouch (change : Retouch) : ∀ fields : List Field,
    Field.listNodes (Field.listRetouch change fields)
      = (Field.listNodes fields).map (Node.retouch change)
  | [] => rfl
  | field :: rest => by
      rw [Field.listRetouch, Field.listNodes, Field.listNodes, List.map_append,
        Field.nodes_retouch change field, Field.listNodes_retouch change rest]
end

theorem Operation.references_retouch (change : Retouch) (operation : Operation) :
    (operation.retouch change).references =
      operation.references.map (TypeReference.retouch change) := by
  rcases operation with ⟨name, documentation, request, response, span⟩
  cases request <;> cases response <;> rfl

theorem DeclarationBody.nodes_retouch (change : Retouch) (body : DeclarationBody) :
    (body.retouch change).nodes = body.nodes.map (Node.retouch change) := by
  cases body with
  | type expression => exact expression.nodes_retouch change
  | interface operations =>
      simp only [DeclarationBody.retouch, nodes, List.flatMap_map, List.map_flatMap,
        List.map_cons, List.map_map, Operation.references_retouch]
      rfl
  | service embeds implements =>
      simp only [DeclarationBody.retouch, nodes, ← List.map_append, List.map_map]
      rfl

theorem Declaration.nodes_retouch (change : Retouch) (declaration : Declaration) :
    (declaration.retouch change).nodes = declaration.nodes.map (Node.retouch change) :=
  congrArg (_ :: ·) (declaration.body.nodes_retouch change)

theorem Statement.nodes_retouch (change : Retouch) (statement : Statement) :
    (statement.retouch change).nodes = statement.nodes.map (Node.retouch change) := by
  cases statement with
  | importing statement =>
      simp only [Statement.retouch, nodes, ImportStatement.retouch, List.map_cons, List.map_map]
      rfl
  | declaring declaration => exact declaration.nodes_retouch change

theorem Program.nodes_retouch (change : Retouch) (program : Program) :
    (program.retouch change).nodes = program.nodes.map (Node.retouch change) := by
  simp only [nodes, List.map_cons, List.map_flatMap, ← Statement.nodes_retouch, Node.retouch]
  rw [Program.retouch, List.flatMap_map]

theorem Statement.span_retouch (change : Retouch) (statement : Statement) :
    (statement.retouch change).span = statement.span.retouch change := by
  cases statement <;> rfl

theorem Program.span_retouch (change : Retouch) (program : Program) :
    (program.retouch change).span = program.span.map (Span.retouch change) := by
  simp only [span, Program.retouch, List.head?_map, List.getLast?_map]
  cases program.statements.head? with
  | none => rfl
  | some first =>
      cases program.statements.getLast? with
      | none => rfl
      | some last =>
          simp only [Option.map_some, Statement.span_retouch]
          rfl

namespace Node

theorem reference?_retouch (change : Retouch) (node : Node) :
    (node.retouch change).reference? = node.reference?.map (TypeReference.retouch change) := by
  cases node <;> rfl

/-- All spans in a node itself: where it stands, and where the path of an import stands. -/
def spans (node : Node) : List Span :=
  node.span?.toList ++
    match node with
    | .ofImport statement => [statement.pathSpan]
    | _ => []

theorem spans_retouch (change : Retouch) (node : Node) :
    (node.retouch change).spans = node.spans.map (Span.retouch change) := by
  cases node with
  | ofProgram program =>
      simp only [Node.retouch, spans, span?, Program.span_retouch, List.append_nil]
      cases program.span <;> rfl
  | ofField field =>
      cases field
      simp only [Node.retouch, spans, span?, Field.retouch, Field.span]
      rfl
  | _ => rfl

end Node

end ServiceModules
