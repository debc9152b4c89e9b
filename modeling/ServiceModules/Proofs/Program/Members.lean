import ServiceModules.Proofs.Program.Documentation
import ServiceModules.Program.Node

/-!
The members of a program: the fields of its records, however deep they stand, and the operations of
its interfaces. Documentation plays no part in them, save that a member begins with its own.
-/

namespace ServiceModules

/-- The place where a field or an operation begins, and its name. -/
structure Member where
  start : Position
  name : String
deriving DecidableEq, Repr

def Field.member (field : Field) : Member := ⟨field.span.start, field.name⟩

def Operation.member (operation : Operation) : Member := ⟨operation.span.start, operation.name⟩

namespace Node

def member? : Node → Option Member
  | .ofField field => some field.member
  | .ofOperation operation => some operation.member
  | _ => none

end Node

def Program.members (program : Program) : List Member := program.nodes.filterMap Node.member?

/-! ## Members by the recursion of the program -/

def TypeExpression.members (expression : TypeExpression) : List Member :=
  expression.nodes.filterMap Node.member?

def Field.members (field : Field) : List Member := field.nodes.filterMap Node.member?

theorem Field.members_mk (name : String) (documentation : Option String) (type : TypeExpression)
    (span : Span) :
    (mk name documentation type span).members = ⟨span.start, name⟩ :: type.members := by
  rw [members, nodes]
  exact List.filterMap_cons_some rfl

theorem Field.listNodes_members (fields : List Field) :
    (listNodes fields).filterMap Node.member? = fields.flatMap members := by
  induction fields with
  | nil => rw [listNodes, List.filterMap_nil, List.flatMap_nil]
  | cons field rest induction =>
      rw [listNodes, List.filterMap_append, induction, List.flatMap_cons, members]

theorem TypeExpression.members_record (fields : List Field) (span : Span) :
    (record fields span).members = fields.flatMap Field.members := by
  rw [members, nodes, List.filterMap_cons_none rfl, Field.listNodes_members]

theorem Node.filterMap_member?_references (references : List TypeReference) :
    (references.map Node.ofReference).filterMap member? = [] := by
  rw [List.filterMap_map]
  exact List.filterMap_eq_nil_iff.mpr fun _ _ => rfl

namespace DeclarationBody

def members : DeclarationBody → List Member
  | .type expression => expression.members
  | .interface operations => operations.map Operation.member
  | .service _ _ => []

theorem nodes_members (body : DeclarationBody) :
    body.nodes.filterMap Node.member? = body.members := by
  cases body with
  | type expression => rfl
  | service embeds implements => exact Node.filterMap_member?_references (embeds ++ implements)
  | interface operations =>
      have ofOperation : ∀ operation : Operation,
          (Node.ofOperation operation :: operation.references.map .ofReference).filterMap
            Node.member? = [operation.member] := by
        intro operation
        have here := @List.filterMap_cons_some _ _ Node.member? (.ofOperation operation)
          (operation.references.map .ofReference) _ rfl
        rw [here, Node.filterMap_member?_references]
      rw [nodes, members, List.filterMap_flatMap, List.map_eq_flatMap]
      simp only [ofOperation]

end DeclarationBody

namespace Statement

def members : Statement → List Member
  | .importing _ => []
  | .declaring declaration => declaration.body.members

theorem nodes_members (statement : Statement) :
    statement.nodes.filterMap Node.member? = statement.members := by
  cases statement with
  | importing statement =>
      rw [nodes, List.filterMap_cons_none rfl, List.filterMap_map]
      exact List.filterMap_eq_nil_iff.mpr fun _ _ => rfl
  | declaring declaration =>
      rw [nodes, Declaration.nodes, List.filterMap_cons_none rfl, DeclarationBody.nodes_members,
        members]

end Statement

theorem Program.members_eq (program : Program) :
    program.members = program.statements.flatMap Statement.members := by
  rw [members, nodes, List.filterMap_cons_none rfl, List.filterMap_flatMap]
  simp only [Statement.nodes_members]

/-! ## Where documentation can stand -/

namespace Statement

def starts : Statement → List Position
  | .importing _ => []
  | .declaring declaration =>
    declaration.span.start :: declaration.body.members.map Member.start

end Statement

/-- Where all begins that can be documented. -/
def Program.starts (program : Program) : List Position :=
  program.statements.flatMap Statement.starts

theorem Program.start_mem_starts {program : Program} {member : Member}
    (isMember : member ∈ program.members) : member.start ∈ program.starts := by
  rw [members_eq] at isMember
  rcases List.mem_flatMap.mp isMember with ⟨statement, isStatement, inStatement⟩
  refine List.mem_flatMap.mpr ⟨statement, isStatement, ?_⟩
  cases statement with
  | importing statement => cases inStatement
  | declaring declaration => exact List.mem_cons_of_mem _ (List.mem_map_of_mem inStatement)

/-! ## Without documentation -/

mutual
theorem TypeExpression.members_withoutDocumentation (expression : TypeExpression) :
    expression.withoutDocumentation.members = expression.members := by
  cases expression with
  | named reference => rfl
  | record fields span =>
      rw [TypeExpression.withoutDocumentation, TypeExpression.members_record,
        TypeExpression.members_record, Field.listMembers_withoutDocumentation fields]

theorem Field.members_withoutDocumentation (field : Field) :
    field.withoutDocumentation.members = field.members := by
  cases field with
  | mk name documentation type span =>
      rw [Field.withoutDocumentation, Field.members_mk, Field.members_mk,
        TypeExpression.members_withoutDocumentation type]

theorem Field.listMembers_withoutDocumentation (fields : List Field) :
    (Field.listWithoutDocumentation fields).flatMap Field.members =
      fields.flatMap Field.members := by
  cases fields with
  | nil => rfl
  | cons field rest =>
      rw [Field.listWithoutDocumentation, List.flatMap_cons, List.flatMap_cons,
        Field.members_withoutDocumentation field, Field.listMembers_withoutDocumentation rest]
end

theorem Statement.members_withoutDocumentation (statement : Statement) :
    statement.withoutDocumentation.members = statement.members := by
  rcases statement with _ | ⟨name, documentation, body, span⟩
  · rfl
  · cases body with
    | type expression => exact expression.members_withoutDocumentation
    | interface operations =>
        exact List.map_map
    | service embeds implements => rfl

theorem Statement.starts_withoutDocumentation (statement : Statement) :
    statement.withoutDocumentation.starts = statement.starts := by
  cases statement with
  | importing statement => rfl
  | declaring declaration =>
      have sameMembers := members_withoutDocumentation (.declaring declaration)
      exact congrArg (fun members => declaration.span.start :: members.map Member.start) sameMembers

theorem Program.starts_withoutDocumentation (program : Program) :
    program.withoutDocumentation.starts = program.starts := by
  rw [starts, starts, withoutDocumentation, List.flatMap_map]
  simp only [Statement.starts_withoutDocumentation]

theorem Program.members_withoutDocumentation (program : Program) :
    program.withoutDocumentation.members = program.members := by
  rw [members_eq, members_eq, withoutDocumentation, List.flatMap_map]
  simp only [Statement.members_withoutDocumentation]

end ServiceModules
