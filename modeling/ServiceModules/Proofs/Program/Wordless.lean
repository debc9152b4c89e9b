import ServiceModules.Proofs.Program.Documentation

/-!
Programs whose documentation has lost its words. What is documented stays so, but all texts of
documentation become empty.
-/

namespace ServiceModules

def wordless (documentation : Option String) : Option String := documentation.map fun _ => ""

@[simp] theorem wordless_wordless (documentation : Option String) :
    wordless (wordless documentation) = wordless documentation := by
  cases documentation <;> rfl

mutual
def TypeExpression.wordless : TypeExpression → TypeExpression
  | .named reference => .named reference
  | .record fields span => .record (Field.listWordless fields) span

def Field.wordless : Field → Field
  | .mk name documentation type span =>
    .mk name (ServiceModules.wordless documentation) type.wordless span

def Field.listWordless : List Field → List Field
  | [] => []
  | field :: rest => field.wordless :: Field.listWordless rest
end

theorem Field.listWordless_eq_map (fields : List Field) :
    Field.listWordless fields = fields.map Field.wordless := by
  induction fields with
  | nil => rfl
  | cons field rest induction => rw [Field.listWordless, induction, List.map_cons]

theorem TypeExpression.wordless_record (fields : List Field) (span : Span) :
    (TypeExpression.record fields span).wordless = .record (fields.map Field.wordless) span := by
  rw [TypeExpression.wordless, Field.listWordless_eq_map]

def Operation.wordless (operation : Operation) : Operation :=
  { operation with documentation := ServiceModules.wordless operation.documentation }

def DeclarationBody.wordless : DeclarationBody → DeclarationBody
  | .type expression => .type expression.wordless
  | .interface operations => .interface (operations.map Operation.wordless)
  | .service embeds implements => .service embeds implements

def Declaration.wordless (declaration : Declaration) : Declaration :=
  { declaration with
    documentation := ServiceModules.wordless declaration.documentation
    body := declaration.body.wordless }

def Statement.wordless : Statement → Statement
  | .importing statement => .importing statement
  | .declaring declaration => .declaring declaration.wordless

def Program.wordless (program : Program) : Program :=
  ⟨program.statements.map Statement.wordless⟩

/-! ## Losing the words twice -/

mutual
@[simp] theorem TypeExpression.wordless_wordless : ∀ expression : TypeExpression,
    expression.wordless.wordless = expression.wordless
  | .named reference => rfl
  | .record fields span => by
      rw [TypeExpression.wordless, TypeExpression.wordless, Field.listWordless_listWordless fields]

@[simp] theorem Field.wordless_wordless : ∀ field : Field,
    field.wordless.wordless = field.wordless
  | .mk name documentation type span => by
      rw [Field.wordless, Field.wordless, ServiceModules.wordless_wordless,
        TypeExpression.wordless_wordless type]

theorem Field.listWordless_listWordless : ∀ fields : List Field,
    Field.listWordless (Field.listWordless fields) = Field.listWordless fields
  | [] => rfl
  | field :: rest => by
      rw [Field.listWordless, Field.listWordless, Field.wordless_wordless field,
        Field.listWordless_listWordless rest]
end

@[simp] theorem Operation.wordless_wordless (operation : Operation) :
    operation.wordless.wordless = operation.wordless := by
  rw [wordless, wordless, ServiceModules.wordless_wordless]

@[simp] theorem DeclarationBody.wordless_wordless (body : DeclarationBody) :
    body.wordless.wordless = body.wordless := by
  cases body with
  | type expression => simp [wordless]
  | interface operations => simp [wordless, Function.comp_def]
  | service embeds implements => rfl

@[simp] theorem Declaration.wordless_wordless (declaration : Declaration) :
    declaration.wordless.wordless = declaration.wordless := by
  simp [wordless]

@[simp] theorem Statement.wordless_wordless (statement : Statement) :
    statement.wordless.wordless = statement.wordless := by
  cases statement <;> simp [wordless]

/-! ## Losing all documentation -/

mutual
theorem TypeExpression.withoutDocumentation_wordless : ∀ expression : TypeExpression,
    expression.wordless.withoutDocumentation = expression.withoutDocumentation
  | .named reference => rfl
  | .record fields span => by
      rw [TypeExpression.wordless, TypeExpression.withoutDocumentation,
        TypeExpression.withoutDocumentation, Field.listWithoutDocumentation_wordless fields]

theorem Field.withoutDocumentation_wordless : ∀ field : Field,
    field.wordless.withoutDocumentation = field.withoutDocumentation
  | .mk name documentation type span => by
      rw [Field.wordless, Field.withoutDocumentation, Field.withoutDocumentation,
        TypeExpression.withoutDocumentation_wordless type]

theorem Field.listWithoutDocumentation_wordless : ∀ fields : List Field,
    Field.listWithoutDocumentation (Field.listWordless fields) =
      Field.listWithoutDocumentation fields
  | [] => rfl
  | field :: rest => by
      rw [Field.listWordless, Field.listWithoutDocumentation, Field.listWithoutDocumentation,
        Field.withoutDocumentation_wordless field, Field.listWithoutDocumentation_wordless rest]
end

theorem DeclarationBody.withoutDocumentation_wordless (body : DeclarationBody) :
    body.wordless.withoutDocumentation = body.withoutDocumentation := by
  cases body with
  | type expression =>
      rw [wordless, withoutDocumentation, expression.withoutDocumentation_wordless]
      rfl
  | interface operations =>
      rw [wordless, withoutDocumentation, List.map_map]
      rfl
  | service embeds implements => rfl

theorem Statement.withoutDocumentation_wordless (statement : Statement) :
    statement.wordless.withoutDocumentation = statement.withoutDocumentation := by
  cases statement with
  | importing statement => rfl
  | declaring declaration =>
      simp only [wordless, withoutDocumentation, Declaration.wordless,
        Declaration.withoutDocumentation, DeclarationBody.withoutDocumentation_wordless]

namespace Program

theorem withoutDocumentation_wordless (program : Program) :
    program.wordless.withoutDocumentation = program.withoutDocumentation := by
  simp only [wordless, withoutDocumentation, List.map_map, Function.comp_def,
    Statement.withoutDocumentation_wordless]

theorem withoutDocumentation_eq_of_wordless {program other : Program}
    (same : program.wordless = other.wordless) :
    program.withoutDocumentation = other.withoutDocumentation := by
  rw [← withoutDocumentation_wordless, same, withoutDocumentation_wordless]

end Program

end ServiceModules
