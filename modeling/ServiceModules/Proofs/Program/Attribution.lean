import Mathlib.Data.Multiset.Bind
import Mathlib.Data.Multiset.Filter
import ServiceModules.Proofs.Program.Usages

/-!
Whose usage a reference is. Every reference in a declaration, however deep, belongs to the imported
symbol that is called so in this module, and to no other symbol. What is declared here, what is
built in and what another name was given to in the import statement has no such symbol.
-/

namespace ServiceModules

/-! ## Occurrences -/

mutual
/-- The references in a type, each as often as it is written; their order plays no part. -/
def TypeExpression.occurrences : TypeExpression → Multiset TypeReference
  | .named reference => {reference}
  | .record fields _ => Field.listOccurrences fields

def Field.occurrences : Field → Multiset TypeReference
  | .mk _ _ type _ => type.occurrences

def Field.listOccurrences : List Field → Multiset TypeReference
  | [] => 0
  | field :: rest => field.occurrences + Field.listOccurrences rest
end

def Operation.occurrences (operation : Operation) : Multiset TypeReference :=
  operation.request.elim 0 singleton + operation.response.elim 0 singleton

def DeclarationBody.occurrences : DeclarationBody → Multiset TypeReference
  | .type expression => expression.occurrences
  | .interface operations => (operations : Multiset Operation).bind Operation.occurrences
  | .service embeds implements => embeds + implements

def Program.occurrences (program : Program) : Multiset TypeReference :=
  (program.declarations : Multiset Declaration).bind fun declaration =>
    declaration.body.occurrences

/-! The walk comes by every occurrence. -/

mutual
theorem TypeExpression.coe_references : ∀ expression : TypeExpression,
    (expression.references : Multiset TypeReference) = expression.occurrences
  | .named reference => rfl
  | .record fields span => by
      rw [TypeExpression.references_record, TypeExpression.occurrences]
      exact Field.coe_list_references fields

theorem Field.coe_references : ∀ field : Field,
    (field.references : Multiset TypeReference) = field.occurrences
  | .mk name documentation type span => by
      rw [Field.references_mk, Field.occurrences]
      exact type.coe_references

theorem Field.coe_list_references : ∀ fields : List Field,
    (fields.flatMap Field.references : Multiset TypeReference) = Field.listOccurrences fields
  | [] => rfl
  | field :: rest => by
      rw [List.flatMap_cons, ← Multiset.coe_add, Field.listOccurrences, field.coe_references,
        Field.coe_list_references rest]
end

theorem Operation.coe_references (operation : Operation) :
    (operation.references : Multiset TypeReference) = operation.occurrences := by
  cases operation with
  | mk name documentation request response span =>
      cases request <;> cases response <;> rfl

theorem DeclarationBody.coe_references (body : DeclarationBody) :
    (body.references : Multiset TypeReference) = body.occurrences := by
  cases body with
  | type expression => exact expression.coe_references
  | service embeds implements => rfl
  | interface operations =>
      simp only [references, occurrences, ← Operation.coe_references, Multiset.coe_bind]

theorem Program.coe_references (program : Program) :
    (program.declarations.flatMap Declaration.references : Multiset TypeReference) =
      program.occurrences := by
  simp only [occurrences, ← DeclarationBody.coe_references, ← Declaration.references_eq,
    Multiset.coe_bind]

namespace Program

variable {program : Program} {uri : String} {reference : TypeReference}

theorem coe_usages (program : Program) (uri name : String) :
    (program.usages uri name : Multiset Location) =
      (program.occurrences.filter fun reference =>
        reference.name = name ∧ reference.name ∉ TypeReference.builtinNames).map
          fun reference => .ofSpan uri reference.span := by
  rw [usages, references, List.filter_filter, ← coe_references, Multiset.filter_coe,
    Multiset.map_coe]
  congr 2
  apply List.filter_congr
  intro reference _
  simp [TypeReference.isBuiltin]

theorem HasDistinctMarks.nodup_places (apart : program.HasDistinctMarks) (uri : String) :
    (program.occurrences.map fun reference => Location.ofSpan uri reference.span).Nodup := by
  rw [← coe_references, Multiset.map_coe, Multiset.coe_nodup]
  apply nodup_map_of_nodup_map _ (List.nodup_append.mp apart).2.1
  intro left right same
  exact Location.start_eq_of_ofSpan_eq same

theorem HasDistinctMarks.place_mem_usages_iff (apart : program.HasDistinctMarks)
    (isIn : reference ∈ program.occurrences) (name : String) :
    Location.ofSpan uri reference.span ∈ program.usages uri name ↔
      reference.name = name ∧ reference.name ∉ TypeReference.builtinNames := by
  rw [← Multiset.mem_coe, coe_usages, Multiset.mem_map]
  constructor
  · intro isUsage
    obtain ⟨other, isOther, same⟩ := isUsage
    obtain ⟨otherIn, named⟩ := Multiset.mem_filter.mp isOther
    have equal : other = reference :=
      Multiset.inj_on_of_nodup_map (apart.nodup_places uri) other otherIn reference isIn same
    exact equal ▸ named
  · intro named
    exact ⟨reference, Multiset.mem_filter.mpr ⟨isIn, named⟩, rfl⟩

end Program

/-! ## Attribution -/

namespace SymbolTable

def imported (table : SymbolTable) : List ImportedSymbol :=
  table.imports.flatMap ImportRequest.symbols

/-- The reference is a usage of the symbol. -/
def Attributes (table : SymbolTable) (reference : TypeReference) (symbol : ImportedSymbol) : Prop :=
  Location.ofSpan table.uri reference.span ∈ symbol.usages

/-- The usages in the table are the references of the program, each with the symbol that its name
stands for. -/
structure TellsUsages (table : SymbolTable) (program : Program) : Prop where
  /-- A place tells which reference is meant. -/
  places : (program.occurrences.map fun reference =>
    Location.ofSpan table.uri reference.span).Nodup
  usages : ∀ symbol ∈ table.imported, (symbol.usages : Multiset Location) =
    (program.occurrences.filter fun reference =>
      reference.name = symbol.localName ∧ reference.name ∉ TypeReference.builtinNames).map
        fun reference => .ofSpan table.uri reference.span
  /-- No reference belongs to two symbols. -/
  apart : table.imported.Pairwise fun left right => ∀ reference ∈ program.occurrences,
    table.Attributes reference left → ¬ table.Attributes reference right
  declared : ∀ reference ∈ program.occurrences, reference.name ∈ table.declaredNames →
    ∀ symbol ∈ table.imported, ¬ table.Attributes reference symbol
  builtin : ∀ reference ∈ program.occurrences, reference.name ∈ TypeReference.builtinNames →
    ∀ symbol ∈ table.imported, ¬ table.Attributes reference symbol
  /-- The name that a symbol has in its own module stands for nothing here when the symbol was given
  another one, unless it is the local name of some symbol. -/
  renamed : ∀ original ∈ table.imported,
    (∀ other ∈ table.imported, other.localName ≠ original.name) →
      ∀ reference ∈ program.occurrences, reference.name = original.name →
        ∀ symbol ∈ table.imported, ¬ table.Attributes reference symbol

end SymbolTable

namespace Program

variable {program : Program} {uri : String} {table : SymbolTable}

theorem exists_target_of_mem_imported (made : program.symbolTable uri = .ok table)
    {symbol : ImportedSymbol} (isIn : symbol ∈ table.imported) :
    ∃ target ∈ program.targets, target.symbol program uri = symbol := by
  rw [(eq_of_symbolTable_eq_ok made).2] at isIn
  exact List.mem_map.mp ((program.symbols_requests uri).mem_iff.mp isIn)

/-- A reference belongs to a symbol exactly when it uses the local name of the symbol and this is
not the name of a built-in type. -/
theorem attributes_iff (made : program.symbolTable uri = .ok table)
    (apart : program.HasDistinctMarks) {reference : TypeReference}
    (isReference : reference ∈ program.occurrences) {symbol : ImportedSymbol}
    (isSymbol : symbol ∈ table.imported) :
    table.Attributes reference symbol ↔
      reference.name = symbol.localName ∧ reference.name ∉ TypeReference.builtinNames := by
  obtain ⟨target, _, same⟩ := exists_target_of_mem_imported made isSymbol
  rw [SymbolTable.Attributes, ← same, (eq_of_symbolTable_eq_ok made).2]
  exact apart.place_mem_usages_iff isReference target.localName

theorem nodup_names_of_symbolTable (made : program.symbolTable uri = .ok table) :
    (table.declaredNames ++ table.imported.map ImportedSymbol.localName).Nodup := by
  obtain ⟨clear, same⟩ := eq_of_symbolTable_eq_ok made
  have names := nodup_names_of_clash?_eq_none clear
  have imported := (program.symbols_requests uri).map ImportedSymbol.localName
  rw [List.map_map] at imported
  have declared : table.declaredNames = program.declarations.map Declaration.name := by
    rw [same, SymbolTable.declaredNames, List.map_map]
    rfl
  rw [declared, same]
  exact (imported.append_left _).nodup_iff.mpr names

/-- The symbol table of a program that was read from a text tells the usages of all that it imports:
every imported symbol has those references as its usages that use its local name, wherever they are
nested, and nothing else is attributed to it. -/
theorem tellsUsages_of_symbolTable {keepsDocumentation : Bool} {text : String}
    (read : ofText keepsDocumentation uri text = .ok program)
    (made : program.symbolTable uri = .ok table) : table.TellsUsages program := by
  have marks := hasDistinctMarks_of_ofText read
  have names := List.nodup_append.mp (nodup_names_of_symbolTable made)
  have isUri : table.uri = uri := by rw [(eq_of_symbolTable_eq_ok made).2]
  constructor
  case places => exact marks.nodup_places table.uri
  case usages =>
    intro symbol isSymbol
    obtain ⟨target, _, same⟩ := exists_target_of_mem_imported made isSymbol
    rw [isUri, ← same]
    exact program.coe_usages uri target.localName
  case apart =>
    have different : table.imported.Pairwise fun left right =>
        left.localName ≠ right.localName := List.pairwise_map.mp names.2.1
    apply different.imp_of_mem
    intro left right isLeft isRight apart reference isReference toLeft toRight
    have leftName := ((attributes_iff made marks isReference isLeft).mp toLeft).1
    have rightName := ((attributes_iff made marks isReference isRight).mp toRight).1
    exact apart (leftName.symm.trans rightName)
  case declared =>
    intro reference isReference isDeclared symbol isSymbol attributed
    have named := ((attributes_iff made marks isReference isSymbol).mp attributed).1
    exact names.2.2 _ isDeclared _ (List.mem_map_of_mem isSymbol) named
  case builtin =>
    intro reference isReference isBuiltin symbol isSymbol attributed
    exact ((attributes_iff made marks isReference isSymbol).mp attributed).2 isBuiltin
  case renamed =>
    intro original _ unbound reference isReference named symbol isSymbol attributed
    have localName := ((attributes_iff made marks isReference isSymbol).mp attributed).1
    exact unbound symbol isSymbol (localName.symm.trans named)

/-! A name that is given in the import statement, used in nested records, in an operation and in a
service, beside the original name, a built-in type and a declared one. -/

def manifoldText : String :=
  "from b import C as A, D\ntype T: \x7b f: \x7b g: A h: int \x7d i: C \x7d\n" ++
    "interface I \x7b o(A) -> T \x7d\nservice S \x7b embeds I implements A \x7d"

def manifold : Program := (ofText false "a" manifoldText).toOption.getD default

def manifoldTable : SymbolTable := (manifold.symbolTable "a").toOption.getD default

theorem tellsUsages_manifold :
    ofText false "a" manifoldText = .ok manifold ∧
      manifold.symbolTable "a" = .ok manifoldTable ∧ manifold.references.length = 6 ∧
      manifoldTable.imported.map (fun symbol => (symbol.localName, symbol.usages.length)) =
        [("A", 3), ("D", 0)] ∧
      manifoldTable.TellsUsages manifold := by
  have comes : ofText false "a" manifoldText = .ok manifold ∧
      manifold.symbolTable "a" = .ok manifoldTable ∧ manifold.references.length = 6 ∧
      manifoldTable.imported.map (fun symbol => (symbol.localName, symbol.usages.length)) =
        [("A", 3), ("D", 0)] := by
    cbv
  obtain ⟨read, made, count, usages⟩ := comes
  exact ⟨read, made, count, usages, tellsUsages_of_symbolTable read made⟩

end Program

end ServiceModules
