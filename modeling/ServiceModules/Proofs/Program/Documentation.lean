import ServiceModules.Program.Basic

/-!
Programs without their documentation. Erasing removes the documentation of every declaration,
operation and field and keeps all else, spans included.
-/

namespace ServiceModules

mutual
def TypeExpression.withoutDocumentation : TypeExpression → TypeExpression
  | .named reference => .named reference
  | .record fields span => .record (Field.listWithoutDocumentation fields) span

def Field.withoutDocumentation : Field → Field
  | .mk name _ type span => .mk name none type.withoutDocumentation span

def Field.listWithoutDocumentation : List Field → List Field
  | [] => []
  | field :: rest => field.withoutDocumentation :: Field.listWithoutDocumentation rest
end

@[simp] theorem Field.listWithoutDocumentation_eq_map (fields : List Field) :
    Field.listWithoutDocumentation fields = fields.map Field.withoutDocumentation := by
  induction fields with
  | nil => rfl
  | cons field rest induction => simp [Field.listWithoutDocumentation, induction]

def Operation.withoutDocumentation (operation : Operation) : Operation :=
  { operation with documentation := none }

def DeclarationBody.withoutDocumentation : DeclarationBody → DeclarationBody
  | .type expression => .type expression.withoutDocumentation
  | .interface operations => .interface (operations.map Operation.withoutDocumentation)
  | .service embeds implements => .service embeds implements

def Declaration.withoutDocumentation (declaration : Declaration) : Declaration :=
  { declaration with documentation := none, body := declaration.body.withoutDocumentation }

def Statement.withoutDocumentation : Statement → Statement
  | .importing statement => .importing statement
  | .declaring declaration => .declaring declaration.withoutDocumentation

def Program.withoutDocumentation (program : Program) : Program :=
  ⟨program.statements.map Statement.withoutDocumentation⟩

end ServiceModules
