import ServiceModules.Proofs.Program.Documentation
import ServiceModules.Program.Node

/-!
Erasing documentation from the nodes of a program. A program without its documentation has the same
nodes in the same order, and none of them has documentation.
-/

namespace ServiceModules

/-! ## Erasing twice -/

mutual
theorem TypeExpression.withoutDocumentation_idem : ∀ expression : TypeExpression,
    expression.withoutDocumentation.withoutDocumentation = expression.withoutDocumentation
  | .named reference => by simp only [TypeExpression.withoutDocumentation]
  | .record fields span => by
      simp only [TypeExpression.withoutDocumentation, Field.listWithoutDocumentation_idem fields]

theorem Field.withoutDocumentation_idem : ∀ field : Field,
    field.withoutDocumentation.withoutDocumentation = field.withoutDocumentation
  | .mk name documentation type span => by
      simp only [Field.withoutDocumentation, TypeExpression.withoutDocumentation_idem type]

theorem Field.listWithoutDocumentation_idem : ∀ fields : List Field,
    Field.listWithoutDocumentation (Field.listWithoutDocumentation fields)
      = Field.listWithoutDocumentation fields
  | [] => rfl
  | field :: rest => by
      simp only [Field.listWithoutDocumentation, Field.withoutDocumentation_idem field,
        Field.listWithoutDocumentation_idem rest]
end

theorem DeclarationBody.withoutDocumentation_idem (body : DeclarationBody) :
    body.withoutDocumentation.withoutDocumentation = body.withoutDocumentation := by
  cases body with
  | type expression => exact congrArg DeclarationBody.type expression.withoutDocumentation_idem
  | interface operations =>
    simp only [withoutDocumentation, List.map_map]
    rfl
  | service embeds implements => rfl

theorem Statement.withoutDocumentation_idem (statement : Statement) :
    statement.withoutDocumentation.withoutDocumentation = statement.withoutDocumentation := by
  cases statement with
  | importing statement => rfl
  | declaring declaration =>
    simp only [withoutDocumentation, Declaration.withoutDocumentation,
      DeclarationBody.withoutDocumentation_idem]

theorem Program.withoutDocumentation_idem (program : Program) :
    program.withoutDocumentation.withoutDocumentation = program.withoutDocumentation := by
  simp only [withoutDocumentation, List.map_map, Function.comp_def,
    Statement.withoutDocumentation_idem]

/-! ## Erasing the documentation of every node -/

namespace Node

def documentation? : Node → Option String
  | .ofDeclaration declaration => declaration.documentation
  | .ofOperation operation => operation.documentation
  | .ofField field => field.documentation
  | _ => none

def withoutDocumentation : Node → Node
  | .ofProgram program => .ofProgram program.withoutDocumentation
  | .ofImport statement => .ofImport statement
  | .ofTarget target => .ofTarget target
  | .ofDeclaration declaration => .ofDeclaration declaration.withoutDocumentation
  | .ofOperation operation => .ofOperation operation.withoutDocumentation
  | .ofReference reference => .ofReference reference
  | .ofRecord fields span => .ofRecord (fields.map Field.withoutDocumentation) span
  | .ofField field => .ofField field.withoutDocumentation

theorem documentation?_withoutDocumentation (node : Node) :
    node.withoutDocumentation.documentation? = none := by
  cases node with
  | ofField field =>
    cases field
    simp only [withoutDocumentation, Field.withoutDocumentation, documentation?,
      Field.documentation]
  | _ => rfl

theorem reference?_withoutDocumentation (node : Node) :
    node.withoutDocumentation.reference? = node.reference? := by
  cases node <;> rfl

end Node

mutual
theorem TypeExpression.nodes_withoutDocumentation : ∀ expression : TypeExpression,
    expression.withoutDocumentation.nodes = expression.nodes.map Node.withoutDocumentation
  | .named reference => by
      simp [TypeExpression.withoutDocumentation, TypeExpression.nodes, Node.withoutDocumentation]
  | .record fields span => by
      simp only [TypeExpression.withoutDocumentation, TypeExpression.nodes, List.map_cons,
        Node.withoutDocumentation, Field.listNodes_withoutDocumentation fields]
      rw [Field.listWithoutDocumentation_eq_map]

theorem Field.nodes_withoutDocumentation : ∀ field : Field,
    field.withoutDocumentation.nodes = field.nodes.map Node.withoutDocumentation
  | .mk name documentation type span => by
      simp only [Field.withoutDocumentation, Field.nodes, List.map_cons,
        Node.withoutDocumentation, TypeExpression.nodes_withoutDocumentation type]

theorem Field.listNodes_withoutDocumentation : ∀ fields : List Field,
    Field.listNodes (Field.listWithoutDocumentation fields)
      = (Field.listNodes fields).map Node.withoutDocumentation
  | [] => rfl
  | field :: rest => by
      rw [Field.listWithoutDocumentation, Field.listNodes, Field.listNodes, List.map_append,
        Field.nodes_withoutDocumentation field, Field.listNodes_withoutDocumentation rest]
end

theorem DeclarationBody.nodes_withoutDocumentation (body : DeclarationBody) :
    body.withoutDocumentation.nodes = body.nodes.map Node.withoutDocumentation := by
  cases body with
  | type expression => exact expression.nodes_withoutDocumentation
  | interface operations =>
    simp only [DeclarationBody.withoutDocumentation, nodes, List.flatMap_map, List.map_flatMap,
      List.map_cons, List.map_map]
    rfl
  | service embeds implements =>
    simp only [DeclarationBody.withoutDocumentation, nodes, List.map_map]
    rfl

theorem Declaration.nodes_withoutDocumentation (declaration : Declaration) :
    declaration.withoutDocumentation.nodes = declaration.nodes.map Node.withoutDocumentation :=
  congrArg (_ :: ·) declaration.body.nodes_withoutDocumentation

theorem Statement.nodes_withoutDocumentation (statement : Statement) :
    statement.withoutDocumentation.nodes = statement.nodes.map Node.withoutDocumentation := by
  cases statement with
  | importing statement =>
    simp only [Statement.withoutDocumentation, nodes, List.map_cons, List.map_map]
    rfl
  | declaring declaration => exact declaration.nodes_withoutDocumentation

namespace Program

theorem nodes_withoutDocumentation (program : Program) :
    program.withoutDocumentation.nodes = program.nodes.map Node.withoutDocumentation := by
  simp only [nodes, List.map_cons, List.map_flatMap, Node.withoutDocumentation,
    ← Statement.nodes_withoutDocumentation]
  rw [withoutDocumentation, List.flatMap_map]

def IsUndocumented (program : Program) : Prop :=
  ∀ node ∈ program.nodes, node.documentation? = none

theorem isUndocumented_withoutDocumentation (program : Program) :
    program.withoutDocumentation.IsUndocumented := by
  intro node member
  rw [nodes_withoutDocumentation] at member
  rcases List.mem_map.mp member with ⟨documented, _, rfl⟩
  exact documented.documentation?_withoutDocumentation

end Program

end ServiceModules
