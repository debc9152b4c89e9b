import ServiceModules.Proofs.Program.Bindings
import ServiceModules.Proofs.Program.Spans

/-!
The order of usages. What refers to an imported name stands in its symbol in the order of the walk,
which is that of the text except in a service: what a service embeds comes before all that it
implements, whatever stands first. So usages are in the order of the text exactly when no service
implements their name before it embeds it.
-/

namespace ServiceModules

/-! ## Rows of references -/

namespace Node

theorem filterMap_span? {Item : Type} {node : Item → Node} {span : Item → Span}
    (placed : ∀ item, (node item).span? = some (span item)) (items : List Item) :
    (items.map node).filterMap span? = items.map span := by
  rw [List.filterMap_map]
  have same : span? ∘ node = some ∘ span := funext placed
  rw [same, List.filterMap_eq_map]

variable {tokens : Tokens} {parent : Node} {outer : Span}

theorem Fits.inRow {Item : Type} {node : Item → Node} {span : Item → Span} {items : List Item}
    (fits : parent.Fits tokens) (isOuter : parent.span? = some outer)
    (isRow : items.map node ∈ parent.rows)
    (placed : ∀ item, (node item).span? = some (span item)) :
    Span.InRow outer.start outer.stop (items.map span) := by
  have row := (fits.rows outer isOuter _ isRow).spans
  rw [filterMap_span? placed] at row
  exact row

theorem Fits.inRow_type {expression : TypeExpression} (fits : parent.Fits tokens)
    (isOuter : parent.span? = some outer) (isRow : [expression.node] ∈ parent.rows) :
    Span.InRow outer.start outer.stop [expression.span] := by
  have isRow : [expression].map TypeExpression.node ∈ parent.rows := isRow
  exact fits.inRow isOuter isRow TypeExpression.span?_node

end Node

variable {tokens : Tokens}

theorem AllFit.head {node : Node} {rest : List Node} (all : AllFit tokens (node :: rest)) :
    node.Fits tokens :=
  all node (List.mem_cons_self ..)

theorem AllFit.tail {node : Node} {rest : List Node} (all : AllFit tokens (node :: rest)) :
    AllFit tokens rest :=
  fun other member => all other (List.mem_cons_of_mem _ member)

theorem AllFit.of_mem {Item : Type} {items : List Item} {nodes : Item → List Node}
    (all : AllFit tokens (items.flatMap nodes)) {item : Item} (isIn : item ∈ items) :
    AllFit tokens (nodes item) :=
  fun other member => all other (List.mem_flatMap.mpr ⟨item, isIn, member⟩)

mutual
theorem TypeExpression.references_inRow : ∀ expression : TypeExpression,
    AllFit tokens expression.nodes →
      Span.InRow expression.span.start expression.span.stop
        (expression.references.map TypeReference.span)
  | .named reference, all => by
      have fits := all (.ofReference reference) (List.mem_singleton_self _)
      exact .single (.refl _) (fits.span _ rfl).proper (.refl _)
  | .record fields span, all => by
      rw [TypeExpression.nodes, Field.listNodes_eq_flatMap] at all
      have row := all.head.inRow rfl (List.mem_singleton_self _) fun _ => rfl
      rw [TypeExpression.references_record, List.map_flatMap]
      exact row.refine (Field.list_references_inRow fields all.tail)

theorem Field.references_inRow : ∀ field : Field, AllFit tokens field.nodes →
    Span.InRow field.span.start field.span.stop (field.references.map TypeReference.span)
  | .mk name documentation type span, all => by
      rw [Field.nodes] at all
      have within := (all.head.inRow_type rfl (List.mem_singleton_self _)).within
        (List.mem_singleton_self _)
      rw [Field.references_mk]
      exact ((type.references_inRow all.tail).lower within.1).widen within.2.2

theorem Field.list_references_inRow : ∀ fields : List Field,
    AllFit tokens (fields.flatMap Field.nodes) → ∀ field ∈ fields,
      Span.InRow field.span.start field.span.stop (field.references.map TypeReference.span)
  | [], _ => by
      intro field isIn
      cases isIn
  | first :: rest, all => by
      intro field isIn
      rw [List.flatMap_cons] at all
      rcases List.mem_cons.mp isIn with same | isIn
      · rw [same]
        exact first.references_inRow fun node member => all node (List.mem_append_left _ member)
      · exact Field.list_references_inRow rest
          (fun node member => all node (List.mem_append_right _ member)) field isIn
end

/-! ## Declarations -/

def DeclarationBody.EmbedsFirst (name : String) : DeclarationBody → Prop
  | .service embeds implements =>
    ∀ embedded ∈ embeds, ∀ implemented ∈ implements, embedded.name = name →
      implemented.name = name → embedded.span.start.Before implemented.span.start
  | _ => True

instance (name : String) : (body : DeclarationBody) → Decidable (body.EmbedsFirst name)
  | .type _ => isTrue trivial
  | .interface _ => isTrue trivial
  | .service embeds implements =>
    inferInstanceAs (Decidable (∀ embedded ∈ embeds, ∀ implemented ∈ implements,
      embedded.name = name → implemented.name = name →
        embedded.span.start.Before implemented.span.start))

def TypeReference.Before (left right : TypeReference) : Prop :=
  left.span.start.Before right.span.start

theorem TypeReference.pairwise_of_inRow {start stop : Position}
    {references : List TypeReference}
    (row : Span.InRow start stop (references.map TypeReference.span)) :
    references.Pairwise TypeReference.Before := by
  have starts := row.pairwise_start
  rw [List.pairwise_map] at starts
  exact starts

namespace Declaration

variable {declaration : Declaration}

theorem references_inRow (all : AllFit tokens declaration.nodes)
    (noService : ∀ embeds implements, declaration.body ≠ .service embeds implements) :
    Span.InRow declaration.span.start declaration.span.stop
      (declaration.references.map TypeReference.span) := by
  rcases declaration with ⟨name, documentation, body, span⟩
  rw [references_eq]
  cases body with
  | type expression =>
      have row := all.head.inRow_type rfl (List.mem_singleton_self _)
      have within := row.within (List.mem_singleton_self _)
      exact ((expression.references_inRow all.tail).lower within.1).widen within.2.2
  | interface operations =>
      have row := all.head.inRow rfl (List.mem_singleton_self _) fun _ => rfl
      rw [DeclarationBody.references, List.map_flatMap]
      apply row.refine
      intro operation isIn
      exact (all.tail.of_mem isIn).head.inRow rfl (List.mem_singleton_self _) fun _ => rfl
  | service embeds implements => exact absurd rfl (noService embeds implements)

theorem service_inRow {name : String} {documentation : Option String}
    {embeds implements : List TypeReference} {span : Span}
    (all : AllFit tokens (mk name documentation (.service embeds implements) span).nodes) :
    Span.InRow span.start span.stop (embeds.map TypeReference.span) ∧
      Span.InRow span.start span.stop (implements.map TypeReference.span) :=
  ⟨all.head.inRow rfl (List.mem_cons_self ..) fun _ => rfl,
    all.head.inRow rfl (List.mem_cons_of_mem _ (List.mem_singleton_self _)) fun _ => rfl⟩

theorem references_within (all : AllFit tokens declaration.nodes) {reference : TypeReference}
    (member : reference ∈ declaration.references) :
    declaration.span.start.AtMost reference.span.start ∧
      reference.span.start.Before reference.span.stop ∧
      reference.span.stop.AtMost declaration.span.stop := by
  rcases declaration with ⟨name, documentation, body, span⟩
  have isSpan := List.mem_map_of_mem (f := TypeReference.span) member
  cases body with
  | service embeds implements =>
      have rows := service_inRow all
      rw [references_eq, DeclarationBody.references, List.map_append] at isSpan
      rcases List.mem_append.mp isSpan with embedded | implemented
      · exact rows.1.within embedded
      · exact rows.2.within implemented
  | _ =>
      have row := references_inRow all fun _ _ same => by cases same
      exact row.within isSpan

/-- The references by one name begin one behind the other, unless the declaration is a service that
implements the name before it embeds it. -/
theorem pairwise_references_iff (all : AllFit tokens declaration.nodes) (name : String) :
    (declaration.references.filter fun reference => reference.name = name).Pairwise
        TypeReference.Before ↔
      declaration.body.EmbedsFirst name := by
  rcases declaration with ⟨ownName, documentation, body, span⟩
  cases body with
  | service embeds implements =>
      have rows := service_inRow all
      have embedsInOrder := TypeReference.pairwise_of_inRow rows.1
      have implementsInOrder := TypeReference.pairwise_of_inRow rows.2
      rw [references_eq, DeclarationBody.references, List.filter_append, List.pairwise_append]
      constructor
      · rintro ⟨_, _, across⟩ embedded isEmbedded implemented isImplemented named alsoNamed
        exact across embedded (List.mem_filter.mpr ⟨isEmbedded, decide_eq_true named⟩)
          implemented (List.mem_filter.mpr ⟨isImplemented, decide_eq_true alsoNamed⟩)
      · intro first
        refine ⟨embedsInOrder.filter _, implementsInOrder.filter _, ?_⟩
        intro embedded isEmbedded implemented isImplemented
        rcases List.mem_filter.mp isEmbedded with ⟨isEmbedded, named⟩
        rcases List.mem_filter.mp isImplemented with ⟨isImplemented, alsoNamed⟩
        exact first embedded isEmbedded implemented isImplemented (of_decide_eq_true named)
          (of_decide_eq_true alsoNamed)
  | _ =>
      have row := references_inRow all fun _ _ same => by cases same
      exact iff_of_true ((TypeReference.pairwise_of_inRow row).filter _) trivial

end Declaration

/-! ## Programs -/

namespace Program

variable {program : Program}

/-- No service of the program implements the name before it embeds it. -/
def EmbedsFirst (program : Program) (name : String) : Prop :=
  ∀ declaration ∈ program.declarations, declaration.body.EmbedsFirst name

instance (program : Program) (name : String) : Decidable (program.EmbedsFirst name) :=
  inferInstanceAs (Decidable (∀ declaration ∈ program.declarations, _))

theorem allFit_of_mem_declarations (all : AllFit tokens program.nodes) {declaration : Declaration}
    (member : declaration ∈ program.declarations) : AllFit tokens declaration.nodes := by
  rcases List.mem_filterMap.mp member with ⟨statement, isIn, declares⟩
  cases statement with
  | importing _ => cases declares
  | declaring other =>
      cases declares
      exact all.tail.of_mem isIn

theorem pairwise_statements (all : AllFit tokens program.nodes) :
    program.statements.Pairwise fun left right => left.span.stop.AtMost right.span.start := by
  cases placed : program.span with
  | none =>
      have unplaced : (Node.ofProgram program).span? = none := placed
      cases Node.eq_ofProgram_of_span?_eq_none unplaced
      exact .nil
  | some span =>
      have row := all.head.inRow placed (List.mem_singleton_self _) Statement.span?_node
      exact List.pairwise_map.mp row.pairwise

theorem pairwise_selected {Item : Type} {select : Statement → Option Item} {span : Item → Span}
    (all : AllFit tokens program.nodes)
    (placed : ∀ statement item, select statement = some item → span item = statement.span) :
    (program.statements.filterMap select).Pairwise fun left right =>
      (span left).stop.AtMost (span right).start := by
  apply (pairwise_statements all).filterMap
  intro left right order first isFirst second isSecond
  rw [placed left first isFirst, placed right second isSecond]
  exact order

theorem pairwise_declarations (all : AllFit tokens program.nodes) :
    program.declarations.Pairwise fun left right => left.span.stop.AtMost right.span.start := by
  apply pairwise_selected all
  intro statement declaration declares
  cases statement with
  | importing _ => cases declares
  | declaring _ =>
      cases declares
      rfl

theorem pairwise_references_iff (all : AllFit tokens program.nodes) (name : String) :
    ((program.declarations.flatMap Declaration.references).filter fun reference =>
        reference.name = name).Pairwise TypeReference.Before ↔ program.EmbedsFirst name := by
  rw [List.filter_flatMap, List.pairwise_flatMap]
  have across : program.declarations.Pairwise fun left right =>
      ∀ first ∈ left.references.filter (fun reference => reference.name = name),
        ∀ second ∈ right.references.filter (fun reference => reference.name = name),
          first.Before second := by
    apply (pairwise_declarations all).imp_of_mem
    intro left right isLeft isRight order first isFirst second isSecond
    have leftWithin := Declaration.references_within (allFit_of_mem_declarations all isLeft)
      (List.mem_of_mem_filter isFirst)
    have rightWithin := Declaration.references_within (allFit_of_mem_declarations all isRight)
      (List.mem_of_mem_filter isSecond)
    exact (leftWithin.2.1.trans_atMost leftWithin.2.2).trans_atMost
      (order.trans rightWithin.1)
  constructor
  · rintro ⟨inOrder, _⟩ declaration member
    exact (Declaration.pairwise_references_iff (allFit_of_mem_declarations all member) name).mp
      (inOrder declaration member)
  · intro first
    refine ⟨fun declaration member => ?_, across⟩
    exact (Declaration.pairwise_references_iff (allFit_of_mem_declarations all member) name).mpr
      (first declaration member)

theorem usages_eq (program : Program) (uri name : String) :
    program.usages uri name =
      if name ∈ TypeReference.builtinNames then []
      else ((program.declarations.flatMap Declaration.references).filter fun reference =>
        reference.name = name).map fun reference => .ofSpan uri reference.span := by
  rw [usages, references, List.filter_filter]
  split
  · next isBuiltin =>
    rw [List.filter_eq_nil_iff.mpr]
    · rfl
    · intro reference _ both
      rw [Bool.and_eq_true, decide_eq_true_eq, TypeReference.isBuiltin] at both
      rw [both.1, decide_eq_true isBuiltin] at both
      exact Bool.false_ne_true both.2
  · next notBuiltin =>
    congr 1
    apply List.filter_congr
    intro reference _
    by_cases named : reference.name = name
    · rw [TypeReference.isBuiltin, named, decide_eq_false notBuiltin, Bool.not_false,
        Bool.and_true]
    · rw [decide_eq_false named]
      rfl

theorem pairwise_usages_iff (all : AllFit tokens program.nodes) (uri name : String) :
    (program.usages uri name).Pairwise Location.Before ↔
      name ∈ TypeReference.builtinNames ∨ program.EmbedsFirst name := by
  rw [usages_eq]
  split
  · next isBuiltin => exact iff_of_true .nil (.inl isBuiltin)
  · next notBuiltin =>
    rw [List.pairwise_map, or_iff_right notBuiltin, ← pairwise_references_iff all]
    simp only [Location.before_ofSpan_iff]
    rfl

end Program

/-! ## Modules -/

namespace Module

variable {keepsDocumentation : Bool} {uri text : String} {module : Module}
  {request : ImportRequest} {symbol : ImportedSymbol}

theorem usages_of_ofText_eq_ok (read : ofText keepsDocumentation uri text = .ok module)
    (isRequest : request ∈ module.table.imports) (isSymbol : symbol ∈ request.symbols) :
    symbol.usages = module.program.usages uri symbol.localName := by
  rcases eq_of_ofText_eq_ok read with ⟨program, _, _, rfl⟩
  have member := List.mem_flatMap.mpr ⟨request, isRequest, isSymbol⟩
  rcases List.mem_map.mp ((program.symbols_requests uri).mem_iff.mp member) with ⟨target, _, rfl⟩
  rfl

/-- In a module that was read from a text, the usages of an imported symbol are in the order of the
text exactly when no service implements its local name before it embeds it; a built-in name has no
usages. -/
theorem usages_inOrder_iff (read : ofText keepsDocumentation uri text = .ok module)
    (isRequest : request ∈ module.table.imports) (isSymbol : symbol ∈ request.symbols) :
    symbol.usages.Pairwise Location.Before ↔
      symbol.localName ∈ TypeReference.builtinNames ∨
        module.program.EmbedsFirst symbol.localName := by
  rw [usages_of_ofText_eq_ok read isRequest isSymbol]
  rcases eq_of_ofText_eq_ok read with ⟨program, parsed, _, rfl⟩
  exact Program.pairwise_usages_iff (Program.allFit_of_ofText parsed) uri symbol.localName

/-! A name in nested records, and in a service that embeds it first. -/

def nestedText : String :=
  "from b import C as A\ntype T: \x7b f: \x7b g: A \x7d h: A \x7d\n" ++
    "service S \x7b embeds A implements A \x7d"

def nested : Module := (ofText false "a" nestedText).toOption.getD default

def nestedRequest : ImportRequest := nested.table.imports.headD default

def nestedSymbol : ImportedSymbol := nestedRequest.symbols.headD default

theorem usages_inOrder_iff_nested :
    ofText false "a" nestedText = .ok nested ∧ nestedRequest ∈ nested.table.imports ∧
      nestedSymbol ∈ nestedRequest.symbols ∧ nestedSymbol.usages.length = 4 ∧
      nestedSymbol.usages.Pairwise Location.Before := by
  have read : ofText false "a" nestedText = .ok nested := by cbv
  have isRequest : nestedRequest ∈ nested.table.imports := by decide_cbv
  have isSymbol : nestedSymbol ∈ nestedRequest.symbols := by decide_cbv
  have first : nested.program.EmbedsFirst nestedSymbol.localName := by decide_cbv
  exact ⟨read, isRequest, isSymbol, by cbv,
    (usages_inOrder_iff read isRequest isSymbol).mpr (.inr first)⟩

/-- A service that implements a name first and embeds it then has its usages the other way round. -/
theorem exists_usages_out_of_order :
    ∃ module request symbol,
      ofText false "a" "from b import A\nservice S \x7b implements A embeds A \x7d" = .ok module ∧
        request ∈ module.table.imports ∧ symbol ∈ request.symbols ∧
        symbol.usages = [⟨"a", 2, 33, 2, 34⟩, ⟨"a", 2, 24, 2, 25⟩] ∧
        ¬ symbol.usages.Pairwise Location.Before := by
  have usages : (ofText false "a"
      "from b import A\nservice S \x7b implements A embeds A \x7d").map (fun module =>
        module.table.imports.map fun request => request.symbols.map ImportedSymbol.usages) =
      .ok [[[⟨"a", 2, 33, 2, 34⟩, ⟨"a", 2, 24, 2, 25⟩]]] := by cbv
  cases read : ofText false "a" "from b import A\nservice S \x7b implements A embeds A \x7d" with
  | error fault =>
      rw [read] at usages
      cases usages
  | ok module =>
      rw [read] at usages
      have usages := Except.ok.inj usages
      rcases List.map_eq_singleton_iff.mp usages with ⟨request, requests, symbols⟩
      rcases List.map_eq_singleton_iff.mp symbols with ⟨symbol, single, listed⟩
      refine ⟨module, request, symbol, rfl, ?_, ?_, listed, ?_⟩
      · rw [requests]
        exact List.mem_singleton_self _
      · rw [single]
        exact List.mem_singleton_self _
      · rw [listed]
        decide

end Module

end ServiceModules
