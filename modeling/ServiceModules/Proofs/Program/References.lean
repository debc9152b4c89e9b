import ServiceModules.Program.Symbols
import ServiceModules.Proofs.Program.Undocumented

/-!
The types that a declaration names, told by the recursion of the program instead of the walk over
its nodes. Documentation plays no part in them.
-/

namespace ServiceModules

namespace TypeExpression

def references (expression : TypeExpression) : List TypeReference :=
  expression.nodes.filterMap Node.reference?

end TypeExpression

namespace Field

def references (field : Field) : List TypeReference := field.nodes.filterMap Node.reference?

theorem references_mk (name : String) (documentation : Option String) (type : TypeExpression)
    (span : Span) : (mk name documentation type span).references = type.references := by
  rw [references, nodes, TypeExpression.references, List.filterMap_cons_none rfl]

theorem listNodes_references (fields : List Field) :
    (listNodes fields).filterMap Node.reference? = fields.flatMap references := by
  induction fields with
  | nil => rw [listNodes, List.filterMap_nil, List.flatMap_nil]
  | cons field rest induction =>
      rw [listNodes, List.filterMap_append, induction, List.flatMap_cons, references]

end Field

namespace TypeExpression

@[simp] theorem references_record (fields : List Field) (span : Span) :
    (record fields span).references = fields.flatMap Field.references := by
  rw [references, nodes, List.filterMap_cons_none rfl, Field.listNodes_references]

end TypeExpression

namespace DeclarationBody

def references : DeclarationBody → List TypeReference
  | .type expression => expression.references
  | .interface operations => operations.flatMap Operation.references
  | .service embeds implements => embeds ++ implements

theorem filterMap_reference? (references : List TypeReference) :
    (references.map Node.ofReference).filterMap Node.reference? = references := by
  rw [List.filterMap_map]
  exact List.filterMap_some

theorem nodes_references (body : DeclarationBody) :
    body.nodes.filterMap Node.reference? = body.references := by
  cases body with
  | type expression => rfl
  | service embeds implements => exact filterMap_reference? (embeds ++ implements)
  | interface operations =>
      have ofOperation : ∀ operation : Operation,
          (Node.ofOperation operation :: operation.references.map .ofReference).filterMap
            Node.reference? = operation.references := by
        intro operation
        rw [List.filterMap_cons_none rfl, filterMap_reference?]
      rw [nodes, references, List.filterMap_flatMap]
      simp only [ofOperation]

end DeclarationBody

namespace Declaration

theorem references_eq (declaration : Declaration) :
    declaration.references = declaration.body.references := by
  rw [references, nodes, List.filterMap_cons_none rfl, DeclarationBody.nodes_references]

end Declaration

/-! ## Without documentation -/

theorem Declaration.references_withoutDocumentation (declaration : Declaration) :
    declaration.withoutDocumentation.references = declaration.references := by
  rw [references, references, nodes_withoutDocumentation, List.filterMap_map]
  congr 1
  funext node
  exact node.reference?_withoutDocumentation

end ServiceModules
