import ServiceModules.Proofs.Draft.Undocumented
import ServiceModules.Proofs.Module.Unbound
import ServiceModules.Proofs.Program.References

/-!
The symbol table of a program takes nothing from its documentation, so that one text makes one
table, whether its documentation is kept or not.
-/

namespace ServiceModules

namespace Program

theorem imports_withoutDocumentation (program : Program) :
    program.withoutDocumentation.imports = program.imports := by
  rw [imports, withoutDocumentation, List.filterMap_map, imports]
  congr 1
  funext statement
  cases statement <;> rfl

theorem declarations_withoutDocumentation (program : Program) :
    program.withoutDocumentation.declarations =
      program.declarations.map Declaration.withoutDocumentation := by
  rw [declarations, withoutDocumentation, List.filterMap_map, declarations, List.map_filterMap]
  congr 1
  funext statement
  cases statement <;> rfl

theorem references_withoutDocumentation (program : Program) :
    program.withoutDocumentation.references = program.references := by
  rw [references, references, declarations_withoutDocumentation, List.flatMap_map]
  simp only [Declaration.references_withoutDocumentation]

end Program

namespace Declaration

theorem kind_withoutDocumentation (declaration : Declaration) :
    declaration.withoutDocumentation.kind = declaration.kind := by
  rcases declaration with ⟨name, documentation, body, span⟩
  cases body <;> rfl

theorem symbol_withoutDocumentation (uri : String) (declaration : Declaration) :
    declaration.withoutDocumentation.symbol uri = declaration.symbol uri := by
  rw [symbol, symbol, kind_withoutDocumentation]
  rfl

end Declaration

namespace Program

theorem symbolTable_withoutDocumentation (program : Program) (uri : String) :
    program.withoutDocumentation.symbolTable uri = program.symbolTable uri := by
  have usages : program.withoutDocumentation.usages uri = program.usages uri := by
    funext name
    rw [Program.usages, Program.usages, references_withoutDocumentation]
  have requests : program.withoutDocumentation.requests uri = program.requests uri := by
    rw [Program.requests, Program.requests, usages, imports_withoutDocumentation]
  have bindings : program.withoutDocumentation.bindings = program.bindings := by
    rw [Program.bindings, Program.bindings, targets, targets, imports_withoutDocumentation,
      declarations_withoutDocumentation, List.map_map]
    rfl
  rw [symbolTable, symbolTable, requests, bindings, declarations_withoutDocumentation,
    List.map_map]
  simp only [Function.comp_def, Declaration.symbol_withoutDocumentation]

theorem exists_imports_of_ofText {keepsDocumentation : Bool} {uri text : String}
    {program : Program} (read : ofText keepsDocumentation uri text = .ok program) :
    ∃ parsed, parse text = .ok parsed ∧ program.imports = parsed.imports := by
  rw [ofText_eq_parse] at read
  split at read
  · cases read
  · next parsed parses =>
    cases read
    refine ⟨parsed, parses, ?_⟩
    cases keepsDocumentation with
    | true => rfl
    | false => exact parsed.imports_withoutDocumentation

theorem exists_parse_of_ofText {keepsDocumentation : Bool} {uri text : String}
    {program : Program} (read : ofText keepsDocumentation uri text = .ok program) :
    ∃ parsed, parse text = .ok parsed ∧
      program.symbolTable uri = parsed.symbolTable uri := by
  rw [ofText_eq_parse] at read
  split at read
  · cases read
  · next parsed parses =>
    cases read
    refine ⟨parsed, parses, ?_⟩
    cases keepsDocumentation with
    | true => rfl
    | false => exact symbolTable_withoutDocumentation parsed uri

end Program

namespace Module

theorem table_unique {keeps keepsOther : Bool} {uri text : String} {module other : Module}
    (read : ofText keeps uri text = .ok module)
    (readOther : ofText keepsOther uri text = .ok other) : module.table = other.table := by
  rcases eq_of_ofText_eq_ok read with ⟨program, parsed, clear, rfl⟩
  rcases eq_of_ofText_eq_ok readOther with ⟨programOther, parsedOther, clearOther, rfl⟩
  have made : ∀ {program : Program}, Binding.clash? uri [] program.bindings = none →
      program.symbolTable uri =
        .ok ⟨uri, program.declarations.map (Declaration.symbol uri), program.requests uri⟩ := by
    intro program clear
    rw [Program.symbolTable, clear]
  rcases Program.exists_parse_of_ofText parsed with ⟨source, parses, same⟩
  rcases Program.exists_parse_of_ofText parsedOther with ⟨sourceOther, parsesOther, sameOther⟩
  rw [parses] at parsesOther
  cases parsesOther
  rw [← sameOther, made clear, made clearOther] at same
  exact Except.ok.inj same

end Module

end ServiceModules
