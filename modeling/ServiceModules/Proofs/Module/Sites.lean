import ServiceModules.References
import ServiceModules.Proofs.Distinct
import ServiceModules.Proofs.Module.Unbound
import ServiceModules.Proofs.Program.Sites

/-!
Modules that were read from a text. What they declare carries their identifier and has distinct
names, and the places in them that refer to imported names are distinct and lie in their own file,
whatever their requests are bound to.
-/

namespace ServiceModules

namespace Module

def sites (module : Module) : List Location :=
  module.symbolUses.flatMap fun use => use.symbol.sites

theorem sites_eq (module : Module) :
    module.sites =
      (module.table.imports.flatMap ImportRequest.symbols).flatMap ImportedSymbol.sites := by
  have symbols : module.table.importedSymbols.map Prod.snd =
      module.table.imports.flatMap ImportRequest.symbols := by
    rw [SymbolTable.importedSymbols, List.map_flatMap]
    simp only [List.map_map, Function.comp_def, List.map_id']
  rw [sites, symbolUses, List.flatMap_map, ← symbols, List.flatMap_map]

theorem unbound_symbols (module : Module) :
    module.unbound.table.imports.flatMap ImportRequest.symbols =
      module.table.imports.flatMap ImportRequest.symbols := by
  rw [unbound_imports, List.flatMap_map]
  rfl

variable {module : Module}

theorem IsRead.exists_program (read : module.IsRead) :
    ∃ keepsDocumentation program,
      Program.ofText keepsDocumentation module.uri module.text = .ok program ∧
      Binding.clash? module.uri [] program.bindings = none ∧
      module.table.declared = program.declarations.map (Declaration.symbol module.uri) ∧
      (module.table.imports.flatMap ImportRequest.symbols).Perm
        (program.targets.map (ImportTarget.symbol program module.uri)) := by
  rcases read with ⟨keepsDocumentation, readText⟩
  rcases eq_of_ofText_eq_ok readText with ⟨program, parsed, clear, equal⟩
  have declared : module.unbound.table.declared =
      program.declarations.map (Declaration.symbol module.uri) := by rw [equal]
  have imports : module.unbound.table.imports = program.requests module.uri := by rw [equal]
  refine ⟨keepsDocumentation, program, parsed, clear, declared, ?_⟩
  rw [← unbound_symbols, imports]
  exact program.symbols_requests module.uri

theorem IsRead.sites_perm (read : module.IsRead) :
    ∃ keepsDocumentation program,
      Program.ofText keepsDocumentation module.uri module.text = .ok program ∧
      Binding.clash? module.uri [] program.bindings = none ∧
      module.sites.Perm
        (program.targets.flatMap fun target => (target.symbol program module.uri).sites) := by
  rcases read.exists_program with ⟨keepsDocumentation, program, parsed, clear, _, symbols⟩
  refine ⟨keepsDocumentation, program, parsed, clear, ?_⟩
  have mapped := symbols.flatMap_right ImportedSymbol.sites
  rw [List.flatMap_map] at mapped
  rw [sites_eq]
  exact mapped

theorem IsRead.nodup_sites (read : module.IsRead) : module.sites.Nodup := by
  rcases read.sites_perm with ⟨keepsDocumentation, program, parsed, clear, places⟩
  have names := Program.nodup_names_of_clash?_eq_none clear
  exact places.nodup_iff.mpr
    ((Program.hasDistinctMarks_of_ofText parsed).nodup_sites (List.nodup_append.mp names).2.1)

theorem IsRead.file_of_mem_sites (read : module.IsRead) {site : Location}
    (member : site ∈ module.sites) : site.file = module.uri := by
  rcases read.sites_perm with ⟨_, program, _, _, places⟩
  rcases List.mem_flatMap.mp (places.mem_iff.mp member) with ⟨target, _, atTarget⟩
  rcases List.mem_cons.mp atTarget with rfl | used
  · rfl
  · rcases Program.mem_usages.mp used with ⟨reference, _, _, rfl⟩
    rfl

theorem IsRead.moduleUri_of_mem_declared (read : module.IsRead) {symbol : Symbol}
    (member : symbol ∈ module.table.declared) : symbol.moduleUri = module.uri := by
  rcases read.exists_program with ⟨_, program, _, _, declared, _⟩
  rw [declared] at member
  rcases List.mem_map.mp member with ⟨declaration, _, rfl⟩
  rfl

theorem IsRead.nodup_declaredNames (read : module.IsRead) :
    module.table.declaredNames.Nodup := by
  rcases read.exists_program with ⟨_, program, _, clear, declared, _⟩
  have names := Program.nodup_names_of_clash?_eq_none clear
  rw [SymbolTable.declaredNames, declared, List.map_map]
  exact (List.nodup_append.mp names).1

theorem mem_declared_of_lookup {name : String} {symbol : Symbol}
    (found : module.table.lookup name = some symbol) :
    symbol ∈ module.table.declared ∧ symbol.name = name := by
  rw [SymbolTable.lookup] at found
  have named := List.find?_some found
  exact ⟨List.mem_of_find?_eq_some found, of_decide_eq_true named⟩

theorem IsRead.lookup_eq_some_iff (read : module.IsRead) {name : String} {symbol : Symbol} :
    module.table.lookup name = some symbol ↔
      symbol ∈ module.table.declared ∧ symbol.name = name := by
  constructor
  · exact mem_declared_of_lookup
  · rintro ⟨member, rfl⟩
    exact find?_of_nodup_map read.nodup_declaredNames member

theorem exists_lookup_iff {name : String} :
    (∃ symbol, module.table.lookup name = some symbol) ↔
      name ∈ module.table.declaredNames := by
  rw [← Option.isSome_iff_exists, SymbolTable.lookup, List.find?_isSome,
    SymbolTable.declaredNames, List.mem_map]
  simp only [decide_eq_true_eq]

end Module

end ServiceModules
