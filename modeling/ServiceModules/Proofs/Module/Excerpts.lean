import ServiceModules.Proofs.Module.Sites
import ServiceModules.Proofs.Program.Requests
import ServiceModules.Proofs.Program.Spans

/-!
Modules quote their texts. The place of a request is that of its path, in the first of the
statements that it stands for, the place of an imported symbol begins with its name, and names
that clash are bound at places that can be seen.
-/

namespace ServiceModules

/-! ## Programs -/

/-- The span of a target begins with its name. -/
def ImportTarget.Quotes (target : ImportTarget) (read : List Char) : Prop :=
  ∃ rest, target.span.Covers read (target.name.toList ++ rest)

def Statement.Quotes (read : List Char) : Statement → Prop
  | .importing statement =>
    statement.pathSpan.Covers read statement.path.text.toList ∧
      ∀ target ∈ statement.targets, target.Quotes read
  | .declaring declaration => declaration.span.IsExcerpt read

def Program.Quotes (program : Program) (text : List Char) : Prop :=
  ∀ statement ∈ program.statements, statement.Quotes text

theorem ImportTarget.IsWritten.quotes {target : ImportTarget} {text : List Char}
    (written : target.IsWritten text) : target.Quotes text := by
  unfold IsWritten at written
  cases renamed : target.renamed with
  | none =>
      rw [renamed] at written
      exact ⟨[], by rw [List.append_nil]; exact written⟩
  | some later =>
      rw [renamed] at written
      rcases written with ⟨between, covers⟩
      exact ⟨_, covers⟩

theorem Statement.quotes_of_allFit {statement : Statement} {text : List Char}
    (all : AllFit (.ofText text) statement.nodes) : statement.Quotes text := by
  cases statement with
  | importing statement =>
      have isNode : .ofImport statement ∈ (Statement.importing statement).nodes :=
        List.mem_cons_self ..
      refine ⟨ImportStatement.Fits.covers (all _ isNode).names, ?_⟩
      intro target isTarget
      have isNode : .ofTarget target ∈ (Statement.importing statement).nodes :=
        List.mem_cons_of_mem _ (List.mem_map_of_mem isTarget)
      exact (ImportTarget.Fits.isWritten (all _ isNode).names).quotes
  | declaring declaration => exact (Statement.span_fits all).isExcerpt

namespace Program

variable {program : Program} {uri : String} {text : List Char}

theorem quotes_of_ofText {keepsDocumentation : Bool} {text : String}
    (read : ofText keepsDocumentation uri text = .ok program) : program.Quotes text.toList := by
  intro statement isIn
  apply Statement.quotes_of_allFit
  intro node isNode
  exact allFit_of_ofText read node
    (List.mem_cons_of_mem _ (List.mem_flatMap.mpr ⟨statement, isIn, isNode⟩))

theorem Quotes.of_mem_imports (quotes : program.Quotes text) {statement : ImportStatement}
    (member : statement ∈ program.imports) :
    statement.pathSpan.Covers text statement.path.text.toList ∧
      ∀ target ∈ statement.targets, target.Quotes text := by
  rcases List.mem_filterMap.mp member with ⟨whole, isIn, imports⟩
  have quoted := quotes whole isIn
  cases whole with
  | importing other =>
      cases imports
      exact quoted
  | declaring declaration => cases imports

theorem Quotes.of_mem_targets (quotes : program.Quotes text) {target : ImportTarget}
    (member : target ∈ program.targets) : target.Quotes text := by
  rcases List.mem_flatMap.mp member with ⟨statement, isIn, inside⟩
  exact (quotes.of_mem_imports isIn).2 target inside

theorem Quotes.of_mem_declarations (quotes : program.Quotes text) {declaration : Declaration}
    (member : declaration ∈ program.declarations) : declaration.span.IsExcerpt text := by
  rcases List.mem_filterMap.mp member with ⟨whole, isIn, declares⟩
  have quoted := quotes whole isIn
  cases whole with
  | importing statement => cases declares
  | declaring other =>
      cases declares
      exact quoted

theorem Quotes.of_mem_bindings (quotes : program.Quotes text) {binding : Binding}
    (member : binding ∈ program.bindings) : binding.span.IsExcerpt text := by
  rcases List.mem_append.mp member with declared | imported
  · rcases List.mem_map.mp declared with ⟨declaration, isIn, rfl⟩
    exact quotes.of_mem_declarations isIn
  · rcases List.mem_map.mp imported with ⟨target, isIn, rfl⟩
    rcases quotes.of_mem_targets isIn with ⟨rest, covers⟩
    exact ⟨_, covers⟩

theorem Quotes.of_mem_requests (quotes : program.Quotes text) {request : ImportRequest}
    (member : request ∈ program.requests uri) :
    ∃ span, request.location = some (.ofSpan uri span) ∧
      span.Covers text request.path.text.toList := by
  rw [requests_eq] at member
  rcases List.mem_map.mp member with ⟨path, isPath, rfl⟩
  have named : path ∈ program.imports.map ImportStatement.path := List.mem_eraseDups.mp isPath
  rcases @ImportRequest.exists_location_ofStatements (program.usages uri) uri _ _ named with
    ⟨statement, isIn, rfl, placed⟩
  exact ⟨statement.pathSpan, placed, (quotes.of_mem_imports isIn).1⟩

end Program

theorem Binding.exists_of_clash? {uri : String} {earlier bindings : List Binding}
    {clash : NameClash} (clashes : clash? uri earlier bindings = some clash) :
    ∃ binding ∈ bindings, clash.location = some (.ofSpan uri binding.span) := by
  induction bindings generalizing earlier with
  | nil => cases clashes
  | cons binding rest induction =>
      rw [clash?] at clashes
      split at clashes
      · cases clashes
        exact ⟨binding, List.mem_cons_self .., rfl⟩
      · rcases induction clashes with ⟨other, member, placed⟩
        exact ⟨other, List.mem_cons_of_mem _ member, placed⟩

/-! ## Modules -/

namespace Module.IsRead

variable {module : Module}

theorem exists_request (read : module.IsRead) {request : ImportRequest}
    (member : request.unbound ∈ module.unbound.table.imports) :
    ∃ span, request.location = some (.ofSpan module.uri span) ∧
      span.Covers module.text.toList request.path.text.toList := by
  rcases read with ⟨keepsDocumentation, readText⟩
  rcases eq_of_ofText_eq_ok readText with ⟨program, parsed, _, equal⟩
  have imports : module.unbound.table.imports = program.requests module.uri := by rw [equal]
  rw [imports] at member
  have quoted := (Program.quotes_of_ofText parsed).of_mem_requests member
  exact quoted

theorem exists_symbol (read : module.IsRead) {request : ImportRequest}
    (member : request ∈ module.table.imports) {symbol : ImportedSymbol}
    (inside : symbol ∈ request.symbols) :
    ∃ span rest, symbol.location = some (.ofSpan module.uri span) ∧
      span.Covers module.text.toList (symbol.name.toList ++ rest) := by
  rcases read.exists_program with ⟨_, program, parsed, _, _, symbols⟩
  have known := symbols.mem_iff.mp (List.mem_flatMap.mpr ⟨request, member, inside⟩)
  rcases List.mem_map.mp known with ⟨target, isTarget, rfl⟩
  rcases (Program.quotes_of_ofText parsed).of_mem_targets isTarget with ⟨rest, covers⟩
  exact ⟨target.span, rest, rfl, covers⟩

end Module.IsRead

end ServiceModules
