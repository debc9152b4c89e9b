import ServiceModules.Proofs.Program.Bindings
import ServiceModules.Proofs.Program.Retouch

/-!
Programs that differ in the order of their import statements. The statements stand elsewhere in the
other program, so that every place may have moved; if none has, each statement keeps its spans. Both
programs bind the same names and have the same requests, up to the order of these and of their
symbols and up to which of several statements with one path comes first.
-/

namespace ServiceModules

def Retouch.moving (place : Displacement) : Retouch := ⟨place, fun _ => none⟩

namespace Program

/-- The right program declares the same as the left one and holds the same import statements in some
order, where `place` is what has become of the places. -/
structure Shuffles (place : Displacement) (left right : Program) : Prop where
  declarations : right.declarations = left.declarations.map (Declaration.retouch (.moving place))
  imports : right.imports.Perm (left.imports.map (ImportStatement.retouch (.moving place)))

end Program

/-! ## When nothing has moved -/

mutual
theorem TypeExpression.retouch_moving_id :
    ∀ expression : TypeExpression, expression.retouch (.moving .id) = expression
  | .named reference => rfl
  | .record fields span => by
      rw [TypeExpression.retouch, Field.listRetouch_moving_id fields]
      rfl

theorem Field.retouch_moving_id : ∀ field : Field, field.retouch (.moving .id) = field
  | .mk name documentation type span => by
      rw [Field.retouch, TypeExpression.retouch_moving_id type]
      rfl

theorem Field.listRetouch_moving_id :
    ∀ fields : List Field, Field.listRetouch (.moving .id) fields = fields
  | [] => rfl
  | field :: rest => by
      rw [Field.listRetouch, Field.retouch_moving_id field, Field.listRetouch_moving_id rest]
end

theorem TypeReference.retouch_moving_id :
    TypeReference.retouch (.moving .id) = (id : TypeReference → TypeReference) := rfl

theorem Operation.retouch_moving_id (operation : Operation) :
    operation.retouch (.moving .id) = operation := by
  simp only [Operation.retouch, TypeReference.retouch_moving_id, Option.map_id, id]
  rfl

theorem DeclarationBody.retouch_moving_id (body : DeclarationBody) :
    body.retouch (.moving .id) = body := by
  cases body with
  | type expression => exact congrArg DeclarationBody.type expression.retouch_moving_id
  | interface operations =>
      rw [DeclarationBody.retouch, List.map_congr_left fun operation _ =>
        Operation.retouch_moving_id operation, List.map_id']
  | service embeds implements =>
      rw [DeclarationBody.retouch, TypeReference.retouch_moving_id, List.map_id, List.map_id]

theorem Declaration.retouch_moving_id (declaration : Declaration) :
    declaration.retouch (.moving .id) = declaration := by
  rw [Declaration.retouch, DeclarationBody.retouch_moving_id]
  rfl

theorem ImportStatement.retouch_moving_id (statement : ImportStatement) :
    statement.retouch (.moving .id) = statement := by
  have targets : ImportTarget.retouch (.moving .id) = (id : ImportTarget → ImportTarget) := rfl
  rw [ImportStatement.retouch, targets, List.map_id]
  rfl

theorem Program.shuffles_id_iff {left right : Program} :
    left.Shuffles .id right ↔
      right.declarations = left.declarations ∧ right.imports.Perm left.imports := by
  have declarations : left.declarations.map (Declaration.retouch (.moving .id)) =
      left.declarations := by
    rw [List.map_congr_left fun declaration _ => Declaration.retouch_moving_id declaration,
      List.map_id']
  have imports : left.imports.map (ImportStatement.retouch (.moving .id)) = left.imports := by
    rw [List.map_congr_left fun statement _ => ImportStatement.retouch_moving_id statement,
      List.map_id']
  constructor
  · intro shuffles
    exact ⟨declarations ▸ shuffles.declarations, imports ▸ shuffles.imports⟩
  · rintro ⟨sameDeclarations, order⟩
    exact ⟨declarations.symm ▸ sameDeclarations, imports.symm ▸ order⟩

/-! ## What has become of the places in all files -/

section

variable (place : String → Displacement)

namespace Location

def moved (location : Location) : Location :=
  .ofSpan location.file
    ⟨(place location.file).start ⟨location.line.toNat, location.column.toNat⟩,
      (place location.file).stop ⟨location.endLine.toNat, location.endColumn.toNat⟩⟩

@[simp] theorem moved_ofSpan (uri : String) (span : Span) :
    (ofSpan uri span).moved place = .ofSpan uri (span.retouch (.moving (place uri))) := rfl

end Location

def Symbol.moved (symbol : Symbol) : Symbol :=
  { symbol with location := symbol.location.map (Location.moved place) }

def ImportedSymbol.moved (symbol : ImportedSymbol) : ImportedSymbol :=
  { symbol with
    location := symbol.location.map (Location.moved place)
    usages := symbol.usages.map (Location.moved place) }

theorem ImportedSymbol.sites_moved (symbol : ImportedSymbol) :
    (symbol.moved place).sites = symbol.sites.map (Location.moved place) := by
  rw [sites, sites, List.map_append]
  cases symbol with
  | mk name localName location usages => cases location <;> rfl

/-- The right request is the left one for a program that holds `statements` in another order. -/
structure ImportRequest.Matches (uri : String) (statements : List ImportStatement)
    (left right : ImportRequest) : Prop where
  path : right.path = left.path
  target : right.target = left.target
  symbols : right.symbols.Perm (left.symbols.map (ImportedSymbol.moved place))
  leftLocation : ∃ statement ∈ statements, statement.path = left.path ∧
    left.location = some (.ofSpan uri statement.pathSpan)
  rightLocation : ∃ statement ∈ statements, statement.path = left.path ∧
    right.location = some ((Location.ofSpan uri statement.pathSpan).moved place)

end

/-! ## References -/

section

variable (retouch : Retouch)

theorem Declaration.references_retouch (declaration : Declaration) :
    (declaration.retouch retouch).references =
      declaration.references.map (TypeReference.retouch retouch) := by
  rw [references, references, Declaration.nodes_retouch, List.filterMap_map, List.map_filterMap]
  congr 1
  funext node
  exact node.reference?_retouch retouch

theorem Declaration.kind_retouch (declaration : Declaration) :
    (declaration.retouch retouch).kind = declaration.kind := by
  rcases declaration with ⟨name, documentation, body, span⟩
  cases body <;> rfl

end

/-! ## Clashes -/

namespace Program

theorem exists_symbolTable_iff {program : Program} {uri : String} :
    (∃ table, program.symbolTable uri = .ok table) ↔ (program.bindings.map Binding.name).Nodup := by
  rw [← @Binding.clash?_eq_none_iff uri, symbolTable]
  cases Binding.clash? uri [] program.bindings <;> simp

/-! ## Programs whose statements are shuffled -/

namespace Shuffles

variable {place : String → Displacement} {uri : String} {left right : Program}

theorem names_perm {move : Displacement} (shuffles : left.Shuffles move right) :
    (right.bindings.map Binding.name).Perm (left.bindings.map Binding.name) := by
  have declared : right.declarations.map Declaration.name =
      left.declarations.map Declaration.name := by
    rw [shuffles.declarations, List.map_map]
    rfl
  have imported : (right.targets.map ImportTarget.localName).Perm
      (left.targets.map ImportTarget.localName) := by
    have moved := (shuffles.imports.flatMap_right ImportStatement.targets).map
      ImportTarget.localName
    rw [List.flatMap_map] at moved
    simp only [ImportStatement.retouch, List.map_flatMap, List.map_map] at moved
    simp only [targets, List.map_flatMap]
    exact moved
  rw [bindings, bindings, List.map_append, List.map_append, List.map_map, List.map_map,
    List.map_map, List.map_map]
  show (right.declarations.map Declaration.name ++
    right.targets.map ImportTarget.localName).Perm _
  rw [declared]
  exact imported.append_left _

theorem exists_symbolTable_iff {move : Displacement} (shuffles : left.Shuffles move right) :
    (∃ table, left.symbolTable uri = .ok table) ↔ ∃ table, right.symbolTable uri = .ok table := by
  rw [Program.exists_symbolTable_iff, Program.exists_symbolTable_iff]
  exact shuffles.names_perm.nodup_iff.symm

variable (shuffles : left.Shuffles (place uri) right)

include shuffles

theorem symbols_eq :
    right.declarations.map (Declaration.symbol uri) =
      (left.declarations.map (Declaration.symbol uri)).map (Symbol.moved place) := by
  rw [shuffles.declarations, List.map_map, List.map_map]
  apply List.map_congr_left
  intro declaration _
  simp only [Function.comp_apply, Declaration.symbol, Declaration.kind_retouch]
  rfl

theorem usages_eq (name : String) :
    right.usages uri name = (left.usages uri name).map (Location.moved place) := by
  have references : right.references =
      left.references.map (TypeReference.retouch (.moving (place uri))) := by
    rw [Program.references, Program.references, shuffles.declarations, List.flatMap_map]
    simp only [Declaration.references_retouch, ← List.map_flatMap]
    rw [List.filter_map]
    rfl
  rw [usages, usages, references, List.filter_map, List.map_map, List.map_map]
  rfl

theorem symbols_statement_eq (statement : ImportStatement) :
    (statement.retouch (.moving (place uri))).symbols (right.usages uri) uri =
      (statement.symbols (left.usages uri) uri).map (ImportedSymbol.moved place) := by
  have usages : right.usages uri = fun name => (left.usages uri name).map (Location.moved place) :=
    funext shuffles.usages_eq
  rw [ImportStatement.symbols, ImportStatement.symbols, usages]
  simp only [ImportStatement.retouch, List.map_map]
  rfl

theorem paths_perm : right.paths.Perm left.paths := by
  rw [List.perm_ext_iff_of_nodup right.nodup_paths left.nodup_paths]
  intro path
  have same := @List.Perm.mem_iff _ path _ _ (shuffles.imports.map ImportStatement.path)
  rw [List.map_map] at same
  rw [paths, paths, List.mem_eraseDups, List.mem_eraseDups]
  exact same

theorem matches_request {path : ImportPath} (member : path ∈ left.paths) :
    ImportRequest.Matches place uri left.imports (left.request uri path)
      (right.request uri path) := by
  have mine : (right.imports.filter fun statement => statement.path = path).Perm
      ((left.imports.filter fun statement => statement.path = path).map
        (ImportStatement.retouch (.moving (place uri)))) := by
    have filtered := shuffles.imports.filter fun statement => statement.path = path
    rw [List.filter_map] at filtered
    exact filtered
  have rightMember := shuffles.paths_perm.mem_iff.mpr member
  refine
    { path := rfl
      target := rfl
      symbols := ?_
      leftLocation := ImportRequest.exists_location_ofStatements (List.mem_eraseDups.mp member)
      rightLocation := ?_ }
  · have symbols := mine.flatMap_right (ImportStatement.symbols (right.usages uri) uri)
    rw [List.flatMap_map] at symbols
    simp only [shuffles.symbols_statement_eq, ← List.map_flatMap] at symbols
    exact symbols
  · rcases @ImportRequest.exists_location_ofStatements (right.usages uri) uri _ _
      (List.mem_eraseDups.mp rightMember) with ⟨moved, movedMember, own, location⟩
    rcases List.mem_map.mp (shuffles.imports.mem_iff.mp movedMember) with
      ⟨statement, inside, rfl⟩
    exact ⟨statement, inside, own, location⟩

end Shuffles

end Program

end ServiceModules
