import Mathlib
import ServiceModules.Draft.Basic
import ServiceModules.Proofs.Program.Undocumented
import ServiceModules.Proofs.Source.Row

/-!
Where the nodes of a program stand. The nodes right below a node stand in rows within its span; a
service has two rows, for what it embeds and for what it implements, which may be mixed. Spans begin
and end where tokens of the text do, and what is named by one token has the span of this token.
-/

namespace ServiceModules

/-! ## The nodes below a node -/

def TypeExpression.node : TypeExpression → Node
  | .named reference => .ofReference reference
  | .record fields span => .ofRecord fields span

def Statement.node : Statement → Node
  | .importing statement => .ofImport statement
  | .declaring declaration => .ofDeclaration declaration

def DeclarationBody.rows : DeclarationBody → List (List Node)
  | .type expression => [[expression.node]]
  | .interface operations => [operations.map .ofOperation]
  | .service embeds implements => [embeds.map .ofReference, implements.map .ofReference]

namespace Node

def rows : Node → List (List Node)
  | .ofProgram program => [program.statements.map Statement.node]
  | .ofImport statement => [statement.targets.map .ofTarget]
  | .ofTarget _ => []
  | .ofDeclaration declaration => declaration.body.rows
  | .ofOperation operation => [operation.references.map .ofReference]
  | .ofReference _ => []
  | .ofRecord fields _ => [fields.map .ofField]
  | .ofField field => [[field.type.node]]

def children (node : Node) : List Node := node.rows.flatten

end Node

theorem TypeExpression.span?_node (expression : TypeExpression) :
    expression.node.span? = some expression.span := by
  cases expression <;> rfl

theorem Statement.span?_node (statement : Statement) :
    statement.node.span? = some statement.span := by
  cases statement <;> rfl

theorem TypeExpression.head?_nodes (expression : TypeExpression) :
    expression.nodes.head? = some expression.node := by
  cases expression <;> simp [nodes, node]

theorem Statement.head?_nodes (statement : Statement) :
    statement.nodes.head? = some statement.node := by
  cases statement <;> rfl

/-! ## Every node stands below the program -/

def Node.Spread (root : Node) (nodes : List Node) : Prop :=
  ∀ node ∈ nodes, node = root ∨ ∃ parent ∈ nodes, node ∈ parent.children

theorem Node.spread_cons {Item : Type} {root : Node} {items : List Item} (top : Item → Node)
    {nodes : Item → List Node} (isChild : ∀ item ∈ items, top item ∈ root.children)
    (spread : ∀ item ∈ items, Spread (top item) (nodes item)) :
    Spread root (root :: items.flatMap nodes) := by
  intro node member
  rcases List.mem_cons.mp member with rfl | member
  · exact .inl rfl
  · right
    rcases List.mem_flatMap.mp member with ⟨item, isIn, inside⟩
    rcases spread item isIn node inside with rfl | ⟨parent, parentIn, below⟩
    · exact ⟨root, List.mem_cons_self .., isChild item isIn⟩
    · refine ⟨parent, List.mem_cons_of_mem _ ?_, below⟩
      exact List.mem_flatMap.mpr ⟨item, isIn, parentIn⟩

theorem Node.spread_singleton (node : Node) : Spread node [node] :=
  fun _ member => .inl (List.mem_singleton.mp member)

theorem Field.listNodes_eq_flatMap (fields : List Field) :
    listNodes fields = fields.flatMap nodes := by
  induction fields with
  | nil => rfl
  | cons field rest induction => rw [listNodes, induction, List.flatMap_cons]

mutual
theorem TypeExpression.spread : ∀ expression : TypeExpression,
    Node.Spread expression.node expression.nodes
  | .named reference => by
      rw [TypeExpression.nodes]
      exact Node.spread_singleton _
  | .record fields span => by
      rw [TypeExpression.nodes, Field.listNodes_eq_flatMap]
      refine Node.spread_cons .ofField ?_ (Field.list_spread fields)
      intro field isIn
      exact List.mem_flatten.mpr ⟨_, List.mem_singleton_self _, List.mem_map_of_mem isIn⟩

theorem Field.spread : ∀ field : Field, Node.Spread (.ofField field) field.nodes
  | .mk name documentation type span => by
      rw [Field.nodes, ← List.flatMap_singleton TypeExpression.nodes type]
      refine Node.spread_cons TypeExpression.node ?_ ?_
      · intro expression isIn
        rw [List.mem_singleton.mp isIn]
        exact List.mem_flatten.mpr ⟨_, List.mem_singleton_self _, List.mem_singleton_self _⟩
      · intro expression isIn
        rw [List.mem_singleton.mp isIn]
        exact TypeExpression.spread type

theorem Field.list_spread : ∀ fields : List Field,
    ∀ field ∈ fields, Node.Spread (.ofField field) field.nodes
  | [] => by
      intro field isIn
      cases isIn
  | first :: rest => by
      intro field isIn
      rcases List.mem_cons.mp isIn with same | isIn
      · rw [same]
        exact Field.spread first
      · exact Field.list_spread rest field isIn
end

theorem Node.spread_references {root : Node} {references : List TypeReference}
    (isChild : ∀ reference ∈ references, .ofReference reference ∈ root.children) :
    Spread root (root :: references.map .ofReference) := by
  rw [List.map_eq_flatMap]
  exact spread_cons .ofReference isChild fun reference _ => spread_singleton _

theorem Declaration.spread (declaration : Declaration) :
    Node.Spread (.ofDeclaration declaration) declaration.nodes := by
  rcases declaration with ⟨name, documentation, body, span⟩
  cases body with
  | type expression =>
    rw [nodes, DeclarationBody.nodes, ← List.flatMap_singleton TypeExpression.nodes expression]
    refine Node.spread_cons TypeExpression.node ?_ ?_
    · intro other isIn
      rw [List.mem_singleton.mp isIn]
      exact List.mem_flatten.mpr ⟨_, List.mem_singleton_self _, List.mem_singleton_self _⟩
    · intro other isIn
      rw [List.mem_singleton.mp isIn]
      exact expression.spread
  | interface operations =>
    refine Node.spread_cons .ofOperation ?_ ?_
    · intro operation isIn
      exact List.mem_flatten.mpr ⟨_, List.mem_singleton_self _, List.mem_map_of_mem isIn⟩
    · intro operation _
      apply Node.spread_references
      intro reference isIn
      exact List.mem_flatten.mpr ⟨_, List.mem_singleton_self _, List.mem_map_of_mem isIn⟩
  | service embeds implements =>
    apply Node.spread_references
    intro reference isIn
    rcases List.mem_append.mp isIn with isIn | isIn
    · exact List.mem_flatten.mpr ⟨_, List.mem_cons_self .., List.mem_map_of_mem isIn⟩
    · exact List.mem_flatten.mpr
        ⟨_, List.mem_cons_of_mem _ (List.mem_singleton_self _), List.mem_map_of_mem isIn⟩

theorem Statement.spread (statement : Statement) : statement.node.Spread statement.nodes := by
  cases statement with
  | importing statement =>
    rw [nodes, List.map_eq_flatMap]
    refine Node.spread_cons .ofTarget ?_ fun target _ => Node.spread_singleton _
    intro target isIn
    exact List.mem_flatten.mpr ⟨_, List.mem_singleton_self _, List.mem_map_of_mem isIn⟩
  | declaring declaration => exact declaration.spread

theorem Program.spread (program : Program) : Node.Spread (.ofProgram program) program.nodes := by
  refine Node.spread_cons Statement.node ?_ fun statement _ => statement.spread
  intro statement isIn
  exact List.mem_flatten.mpr ⟨_, List.mem_singleton_self _, List.mem_map_of_mem isIn⟩

/-! ## Tokens and what they name -/

abbrev Tokens := Token → Prop

variable (tokens : Tokens)

def Position.BeginsToken (position : Position) : Prop :=
  ∃ token, tokens token ∧ token.span.start = position

/-- The span begins where a token begins, and ends further on where a token ends. -/
structure Span.Fits (span : Span) : Prop where
  proper : span.start.Before span.stop
  begins : span.start.BeginsToken tokens
  ends : ∃ token, tokens token ∧ token.span.stop = span.stop

def TypeReference.Fits (reference : TypeReference) : Prop :=
  ∃ token, tokens token ∧ reference = .ofToken token

def ImportTarget.Fits (target : ImportTarget) : Prop :=
  ∃ token, tokens token ∧ target.name = token.string ∧
    match target.renamed with
    | none => target.span = token.span
    | some renamed => ∃ last, tokens last ∧ renamed = last.string ∧
        token.span.stop.AtMost last.span.start ∧ target.span = token.span.upTo last.span

def ImportStatement.Fits (statement : ImportStatement) : Prop :=
  (∃ token, tokens token ∧ statement.path = .ofText token.string ∧
    statement.pathSpan = token.span) ∧
  Span.InRow statement.span.start statement.span.stop
    (statement.pathSpan :: statement.targets.map ImportTarget.span)

namespace Node

def Names : Node → Prop
  | .ofImport statement => statement.Fits tokens
  | .ofTarget target => target.Fits tokens
  | .ofReference reference => reference.Fits tokens
  | _ => True

/-- The nodes have spans, which stand one behind the other between the two places. -/
def InRow (start stop : Position) (row : List Node) : Prop :=
  ∃ spans : List Span, row.map span? = spans.map some ∧ Span.InRow start stop spans

/-- The node stands where its tokens stand, and the nodes right below it stand in rows within it. -/
structure Fits (node : Node) : Prop where
  span : ∀ span, node.span? = some span → span.Fits tokens
  rows : ∀ span, node.span? = some span → ∀ row ∈ node.rows,
    InRow span.start span.stop row
  names : node.Names tokens

end Node

def AllFit (nodes : List Node) : Prop := ∀ node ∈ nodes, node.Fits tokens

theorem Node.InRow.spans {start stop : Position} {row : List Node} (inRow : InRow start stop row) :
    Span.InRow start stop (row.filterMap span?) := by
  rcases inRow with ⟨spans, placed, inRow⟩
  have same : (row.map span?).filterMap id = (spans.map some).filterMap id := by rw [placed]
  rw [List.filterMap_map, List.filterMap_map, Function.id_comp, Function.id_comp,
    List.filterMap_some] at same
  rw [same]
  exact inRow

variable {tokens}

theorem AllFit.cons {node : Node} {rest : List Node} (head : node.Fits tokens)
    (tail : AllFit tokens rest) : AllFit tokens (node :: rest) := by
  intro other member
  rcases List.mem_cons.mp member with rfl | member
  · exact head
  · exact tail other member

theorem AllFit.append {left right : List Node} (front : AllFit tokens left)
    (back : AllFit tokens right) : AllFit tokens (left ++ right) := by
  intro node member
  rcases List.mem_append.mp member with member | member
  · exact front node member
  · exact back node member

theorem TypeExpression.span_fits {expression : TypeExpression}
    (all : AllFit tokens expression.nodes) :
    expression.span.Fits tokens :=
  (all _ (List.mem_of_mem_head? expression.head?_nodes)).span _ expression.span?_node

theorem Statement.span_fits {statement : Statement} (all : AllFit tokens statement.nodes) :
    statement.span.Fits tokens :=
  (all _ (List.mem_of_mem_head? statement.head?_nodes)).span _ statement.span?_node

/-! ## Rows of nodes that have spans -/

namespace Node

theorem inRow_references {start stop : Position} {references : List TypeReference}
    (row : Span.InRow start stop (references.map TypeReference.span)) :
    InRow start stop (references.map .ofReference) :=
  ⟨_, by rw [List.map_map, List.map_map]; rfl, row⟩

theorem inRow_targets {start stop : Position} {targets : List ImportTarget}
    (row : Span.InRow start stop (targets.map ImportTarget.span)) :
    InRow start stop (targets.map .ofTarget) :=
  ⟨_, by rw [List.map_map, List.map_map]; rfl, row⟩

theorem inRow_operations {start stop : Position} {operations : List Operation}
    (row : Span.InRow start stop (operations.map Operation.span)) :
    InRow start stop (operations.map .ofOperation) :=
  ⟨_, by rw [List.map_map, List.map_map]; rfl, row⟩

theorem inRow_fields {start stop : Position} {fields : List Field}
    (row : Span.InRow start stop (fields.map Field.span)) :
    InRow start stop (fields.map .ofField) :=
  ⟨_, by rw [List.map_map, List.map_map]; rfl, row⟩

theorem inRow_type {start stop : Position} {expression : TypeExpression}
    (row : Span.InRow start stop [expression.span]) : InRow start stop [expression.node] :=
  ⟨[expression.span], congrArg (fun span => [span]) expression.span?_node, row⟩

theorem inRow_statements {start stop : Position} {statements : List Statement}
    (row : Span.InRow start stop (statements.map Statement.span)) :
    InRow start stop (statements.map Statement.node) := by
  refine ⟨_, ?_, row⟩
  rw [List.map_map, List.map_map]
  congr 1
  funext statement
  exact statement.span?_node

end Node

/-! ## Nodes that are put together -/

namespace Node

theorem fits_reference {reference : TypeReference} (span : reference.span.Fits tokens)
    (fits : reference.Fits tokens) : Fits tokens (.ofReference reference) where
  span := by
    rintro other ⟨⟩
    exact span
  rows := by
    rintro _ _ row ⟨⟩
  names := fits

theorem fits_target {target : ImportTarget} (span : target.span.Fits tokens)
    (fits : target.Fits tokens) : Fits tokens (.ofTarget target) where
  span := by
    rintro other ⟨⟩
    exact span
  rows := by
    rintro _ _ row ⟨⟩
  names := fits

theorem fits_import {statement : ImportStatement} (span : statement.span.Fits tokens)
    (fits : statement.Fits tokens) : Fits tokens (.ofImport statement) where
  span := by
    rintro other ⟨⟩
    exact span
  rows := by
    rintro _ ⟨⟩ row member
    rw [List.mem_singleton.mp member]
    rcases fits.2 with ⟨first, proper, targets⟩
    exact inRow_targets (targets.lower (first.trans proper.atMost))
  names := fits

theorem fits_operation {operation : Operation} (span : operation.span.Fits tokens)
    (row : Span.InRow operation.span.start operation.span.stop
      (operation.references.map TypeReference.span)) :
    Fits tokens (.ofOperation operation) where
  span := by
    rintro other ⟨⟩
    exact span
  rows := by
    rintro _ ⟨⟩ other member
    rw [List.mem_singleton.mp member]
    exact inRow_references row
  names := trivial

theorem fits_record {fields : List Field} {span : Span} (fits : span.Fits tokens)
    (row : Span.InRow span.start span.stop (fields.map Field.span)) :
    Fits tokens (.ofRecord fields span) where
  span := by
    rintro other ⟨⟩
    exact fits
  rows := by
    rintro _ ⟨⟩ other member
    rw [List.mem_singleton.mp member]
    exact inRow_fields row
  names := trivial

theorem fits_field {field : Field} (span : field.span.Fits tokens)
    (row : Span.InRow field.span.start field.span.stop [field.type.span]) :
    Fits tokens (.ofField field) where
  span := by
    rintro other ⟨⟩
    exact span
  rows := by
    rintro _ ⟨⟩ other member
    rw [List.mem_singleton.mp member]
    exact inRow_type row
  names := trivial

theorem fits_declaration {declaration : Declaration} (span : declaration.span.Fits tokens)
    (rows : ∀ row ∈ declaration.body.rows,
      InRow declaration.span.start declaration.span.stop row) :
    Fits tokens (.ofDeclaration declaration) where
  span := by
    rintro other ⟨⟩
    exact span
  rows := by
    rintro _ ⟨⟩
    exact rows
  names := trivial

end Node

/-! ## Without documentation -/

theorem TypeExpression.node_withoutDocumentation (expression : TypeExpression) :
    expression.withoutDocumentation.node = expression.node.withoutDocumentation := by
  cases expression with
  | named reference => simp only [withoutDocumentation, node, Node.withoutDocumentation]
  | record fields span =>
    simp only [withoutDocumentation, node, Node.withoutDocumentation,
      Field.listWithoutDocumentation_eq_map]

theorem Statement.span_withoutDocumentation (statement : Statement) :
    statement.withoutDocumentation.span = statement.span := by
  cases statement <;> rfl

theorem Program.span_withoutDocumentation (program : Program) :
    program.withoutDocumentation.span = program.span := by
  simp only [span, withoutDocumentation, List.head?_map, List.getLast?_map]
  cases program.statements.head? with
  | none => rfl
  | some first =>
    cases program.statements.getLast? with
    | none => rfl
    | some last => simp only [Option.map_some, Statement.span_withoutDocumentation]

namespace Node

theorem span?_withoutDocumentation (node : Node) :
    node.withoutDocumentation.span? = node.span? := by
  cases node with
  | ofProgram program => exact program.span_withoutDocumentation
  | ofField field =>
    cases field
    simp only [withoutDocumentation, Field.withoutDocumentation, span?, Field.span]
  | _ => rfl

theorem rows_withoutDocumentation (node : Node) :
    node.withoutDocumentation.rows = node.rows.map (List.map withoutDocumentation) := by
  cases node with
  | ofProgram program =>
    simp only [withoutDocumentation, rows, Program.withoutDocumentation, List.map_cons,
      List.map_map, List.map_nil]
    congr 2
    funext statement
    cases statement <;> rfl
  | ofDeclaration declaration =>
    rcases declaration with ⟨name, documentation, body, span⟩
    cases body with
    | type expression =>
      exact congrArg (fun node => [[node]]) expression.node_withoutDocumentation
    | interface operations =>
      simp only [withoutDocumentation, rows, Declaration.withoutDocumentation,
        DeclarationBody.withoutDocumentation, DeclarationBody.rows, List.map_cons, List.map_map,
        List.map_nil]
      rfl
    | service embeds implements =>
      simp only [withoutDocumentation, rows, Declaration.withoutDocumentation,
        DeclarationBody.withoutDocumentation, DeclarationBody.rows, List.map_cons, List.map_map,
        List.map_nil]
      rfl
  | ofField field =>
    rcases field with ⟨name, documentation, type, span⟩
    simp only [withoutDocumentation, Field.withoutDocumentation, rows, Field.type,
      TypeExpression.node_withoutDocumentation, List.map_cons, List.map_nil]
  | _ =>
    simp only [withoutDocumentation, rows, Operation.withoutDocumentation, List.map_cons,
      List.map_map, List.map_nil]
    try rfl

theorem Fits.withoutDocumentation {node : Node} (fits : node.Fits tokens) :
    node.withoutDocumentation.Fits tokens where
  span := by
    rw [span?_withoutDocumentation]
    exact fits.span
  rows := by
    rw [span?_withoutDocumentation, rows_withoutDocumentation]
    intro span placed row member
    rcases List.mem_map.mp member with ⟨before, isRow, rfl⟩
    rcases fits.rows span placed before isRow with ⟨spans, placedRow, inRow⟩
    have same : span? ∘ Node.withoutDocumentation = span? := funext span?_withoutDocumentation
    refine ⟨spans, ?_, inRow⟩
    rw [List.map_map, same]
    exact placedRow
  names := by
    have names := fits.names
    cases node <;> exact names

end Node

theorem AllFit.withoutDocumentation {program : Program} (all : AllFit tokens program.nodes) :
    AllFit tokens program.withoutDocumentation.nodes := by
  rw [Program.nodes_withoutDocumentation]
  intro node member
  rcases List.mem_map.mp member with ⟨documented, isIn, rfl⟩
  exact (all documented isIn).withoutDocumentation

end ServiceModules
