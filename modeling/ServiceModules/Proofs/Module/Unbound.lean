import ServiceModules.Module.Basic

/-!
Modules without their targets. Binding requests changes nothing but their targets, so a module that
is bound, wholly or in part, is what its text was read as once its targets are taken away.
-/

namespace ServiceModules

namespace ImportRequest

def unbound (request : ImportRequest) : ImportRequest := { request with target := none }

@[simp] theorem unbound_bind (request : ImportRequest) (target : String) :
    (request.bind target).unbound = request.unbound := rfl

@[simp] theorem bind_unbound (request : ImportRequest) (target : String) :
    request.unbound.bind target = request.bind target := rfl

@[simp] theorem bind_target (request : ImportRequest) (target : String) :
    (request.bind target).target = some target := rfl

theorem bind_of_target_eq_some {request : ImportRequest} {target : String}
    (bound : request.target = some target) : request.bind target = request := by
  rw [bind, ← bound]

theorem unbound_of_target_eq_none {request : ImportRequest} (free : request.target = none) :
    request.unbound = request := by
  rw [unbound, ← free]

/-! Requests are made without a target. -/

theorem target_of_mem_insert {usages : String → List Location} {uri : String}
    {statement : ImportStatement} {requests : List ImportRequest}
    (free : ∀ request ∈ requests, request.target = none) :
    ∀ request ∈ insert usages uri statement requests, request.target = none := by
  induction requests with
  | nil =>
      intro request member
      rw [insert, List.mem_singleton] at member
      rw [member]
  | cons head rest induction =>
      have headFree := free head (List.mem_cons_self ..)
      have restFree := fun request member => free request (List.mem_cons_of_mem head member)
      intro request member
      rw [insert] at member
      split at member
      · rcases List.mem_cons.mp member with equal | member
        · rw [equal]
          exact headFree
        · exact restFree request member
      · rcases List.mem_cons.mp member with equal | member
        · rw [equal]
          exact headFree
        · exact induction restFree request member

end ImportRequest

namespace Program

theorem target_of_mem_requests {program : Program} {uri : String} :
    ∀ request ∈ program.requests uri, request.target = none := by
  rw [requests]
  suffices ∀ (statements : List ImportStatement) (requests : List ImportRequest),
      (∀ request ∈ requests, request.target = none) →
      ∀ request ∈ statements.foldl
        (fun requests statement => ImportRequest.insert (program.usages uri) uri statement requests)
        requests, request.target = none from
    this program.imports [] (by simp)
  intro statements
  induction statements with
  | nil => exact fun requests free => free
  | cons statement rest induction =>
      intro requests free
      exact induction _ (ImportRequest.target_of_mem_insert free)

theorem eq_of_symbolTable_eq_ok {program : Program} {uri : String} {table : SymbolTable}
    (made : program.symbolTable uri = .ok table) :
    Binding.clash? uri [] program.bindings = none ∧
      table = ⟨uri, program.declarations.map (Declaration.symbol uri), program.requests uri⟩ := by
  rw [symbolTable] at made
  split at made
  · cases made
  · next distinct =>
    cases made
    exact ⟨distinct, rfl⟩

end Program

namespace Module

def unbound (module : Module) : Module :=
  module.withImports (module.table.imports.map ImportRequest.unbound)

@[simp] theorem withImports_imports (module : Module) (imports : List ImportRequest) :
    (module.withImports imports).table.imports = imports := rfl

@[simp] theorem withImports_self (module : Module) :
    module.withImports module.table.imports = module := rfl

@[simp] theorem withImports_withImports (module : Module) (first second : List ImportRequest) :
    (module.withImports first).withImports second = module.withImports second := rfl

@[simp] theorem unbound_uri (module : Module) : module.unbound.uri = module.uri := rfl

@[simp] theorem unbound_text (module : Module) : module.unbound.text = module.text := rfl

@[simp] theorem unbound_imports (module : Module) :
    module.unbound.table.imports = module.table.imports.map ImportRequest.unbound := rfl

theorem unbound_withImports {module : Module} {imports : List ImportRequest}
    (same : imports.map ImportRequest.unbound = module.table.imports.map ImportRequest.unbound) :
    (module.withImports imports).unbound = module.unbound := by
  rw [unbound, unbound, withImports_imports, same, withImports_withImports]

theorem unbound_eq_self {module : Module}
    (free : ∀ request ∈ module.table.imports, request.target = none) :
    module.unbound = module := by
  have same : module.table.imports.map ImportRequest.unbound = module.table.imports := by
    rw [List.map_congr_left fun request member =>
      ImportRequest.unbound_of_target_eq_none (free request member)]
    exact List.map_id' _
  rw [unbound, same, withImports_self]

/-- Some text was read as this module, whose requests may have been bound since. -/
def IsRead (module : Module) : Prop :=
  ∃ keepsDocumentation, ofText keepsDocumentation module.uri module.text = .ok module.unbound

/-! What a text is read as. -/

theorem eq_of_ofText_eq_ok {keepsDocumentation : Bool} {uri text : String} {module : Module}
    (read : ofText keepsDocumentation uri text = .ok module) :
    ∃ program, Program.ofText keepsDocumentation uri text = .ok program ∧
      Binding.clash? uri [] program.bindings = none ∧
      module = ⟨uri, text, program,
        ⟨uri, program.declarations.map (Declaration.symbol uri), program.requests uri⟩⟩ := by
  rw [ofText] at read
  split at read
  · cases read
  · next program parsed =>
    split at read
    · cases read
    · next table made =>
      cases read
      have ⟨distinct, equal⟩ := Program.eq_of_symbolTable_eq_ok made
      exact ⟨program, parsed, distinct, by rw [equal]⟩

theorem target_of_ofText_eq_ok {keepsDocumentation : Bool} {uri text : String} {module : Module}
    (read : ofText keepsDocumentation uri text = .ok module) :
    ∀ request ∈ module.table.imports, request.target = none := by
  rcases eq_of_ofText_eq_ok read with ⟨program, _, _, rfl⟩
  exact Program.target_of_mem_requests

theorem uri_of_ofText_eq_ok {keepsDocumentation : Bool} {uri text : String} {module : Module}
    (read : ofText keepsDocumentation uri text = .ok module) : module.uri = uri := by
  rcases eq_of_ofText_eq_ok read with ⟨program, _, _, rfl⟩
  rfl

theorem text_of_ofText_eq_ok {keepsDocumentation : Bool} {uri text : String} {module : Module}
    (read : ofText keepsDocumentation uri text = .ok module) : module.text = text := by
  rcases eq_of_ofText_eq_ok read with ⟨program, _, _, rfl⟩
  rfl

theorem ofText_of_ofBytes_eq_ok {configuration : Configuration} {uri : String} {bytes : Bytes}
    {module : Module} (read : ofBytes configuration uri bytes = .ok module) :
    ∃ text, Charset.decodeNamed configuration.charset bytes = .ok text ∧
      ofText configuration.keepsDocumentation uri text = .ok module := by
  rw [ofBytes] at read
  split at read
  · next text decoded => exact ⟨text, decoded, read⟩
  · cases read
  · cases read

theorem uri_of_ofBytes_eq_ok {configuration : Configuration} {uri : String} {bytes : Bytes}
    {module : Module} (read : ofBytes configuration uri bytes = .ok module) :
    module.uri = uri := by
  rcases ofText_of_ofBytes_eq_ok read with ⟨text, _, readText⟩
  exact uri_of_ofText_eq_ok readText

theorem unbound_of_ofBytes_eq_ok {configuration : Configuration} {uri : String} {bytes : Bytes}
    {module : Module} (read : ofBytes configuration uri bytes = .ok module) :
    module.unbound = module := by
  rcases ofText_of_ofBytes_eq_ok read with ⟨text, _, readText⟩
  exact unbound_eq_self (target_of_ofText_eq_ok readText)

theorem isRead_of_ofText_eq_ok {keepsDocumentation : Bool} {uri text : String} {module : Module}
    (read : ofText keepsDocumentation uri text = .ok module) : module.IsRead := by
  refine ⟨keepsDocumentation, ?_⟩
  rw [uri_of_ofText_eq_ok read, text_of_ofText_eq_ok read,
    unbound_eq_self (target_of_ofText_eq_ok read), read]

theorem isRead_of_ofBytes_eq_ok {configuration : Configuration} {uri : String} {bytes : Bytes}
    {module : Module} (read : ofBytes configuration uri bytes = .ok module) :
    module.IsRead := by
  rcases ofText_of_ofBytes_eq_ok read with ⟨text, _, readText⟩
  exact isRead_of_ofText_eq_ok readText

theorem isRead_of_unbound_eq {module other : Module} (same : other.unbound = module.unbound)
    (read : module.IsRead) : other.IsRead := by
  rcases read with ⟨keepsDocumentation, readText⟩
  have sameUri : other.unbound.uri = module.unbound.uri := by rw [same]
  have sameText : other.unbound.text = module.unbound.text := by rw [same]
  rw [unbound_uri, unbound_uri] at sameUri
  rw [unbound_text, unbound_text] at sameText
  exact ⟨keepsDocumentation, by rw [same, sameUri, sameText]; exact readText⟩

end Module

end ServiceModules
