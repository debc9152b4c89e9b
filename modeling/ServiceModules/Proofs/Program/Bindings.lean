import Mathlib.Data.List.Lattice
import Mathlib.Data.List.Pairwise
import ServiceModules.Proofs.Module.Unbound
import ServiceModules.Proofs.Program.Requests

/-!
Symbol tables lose nothing. A program has a table exactly when it binds no name twice, and then
every declaration and every import target has its one place in it. Otherwise the clash that is told
is the first one.
-/

namespace ServiceModules

/-! ## The first clash -/

namespace Binding

/-- The clash is that of the first binding whose name an earlier binding has, with the earlier
one. -/
def IsFirstClash (uri : String) (bindings : List Binding) (clash : NameClash) : Prop :=
  ∃ before binding after previous, bindings = before ++ binding :: after ∧
    (before.map name).Nodup ∧ previous ∈ before ∧ previous.name = binding.name ∧
    clash = ⟨binding.name, some (.ofSpan uri binding.span), some (.ofSpan uri previous.span)⟩

variable {uri : String} {earlier bindings : List Binding} {clash : NameClash}

theorem isFirstClash_of_clash?_eq_some (distinct : (earlier.map name).Nodup)
    (clashes : clash? uri earlier bindings = some clash) :
    IsFirstClash uri (earlier ++ bindings) clash := by
  induction bindings generalizing earlier with
  | nil => cases clashes
  | cons binding rest induction =>
      rw [clash?] at clashes
      split at clashes
      · next previous found =>
        cases clashes
        have member := List.mem_of_find?_eq_some found
        have named := List.find?_some found
        exact ⟨earlier, binding, rest, previous, rfl, distinct, member,
          of_decide_eq_true named, rfl⟩
      · next missing =>
        have first := induction (nodup_map_name_concat distinct missing) clashes
        rw [List.append_assoc] at first
        exact first

theorem IsFirstClash.not_nodup (first : IsFirstClash uri bindings clash) :
    ¬ (bindings.map name).Nodup := by
  rcases first with ⟨before, binding, after, previous, rfl, _, member, same, _⟩
  intro distinct
  rw [List.map_append, List.map_cons] at distinct
  exact (List.nodup_append.mp distinct).2.2 _ (List.mem_map_of_mem member) _
    (List.mem_cons_self ..) same

theorem clash?_eq_none_iff (uri : String) (bindings : List Binding) :
    clash? uri [] bindings = none ↔ (bindings.map name).Nodup := by
  have noNames : (([] : List Binding).map name).Nodup := List.nodup_nil
  constructor
  · exact nodup_of_clash?_eq_none noNames
  · intro distinct
    cases clashes : clash? uri [] bindings with
    | none => rfl
    | some clash =>
        exact absurd distinct (isFirstClash_of_clash?_eq_some noNames clashes).not_nodup

end Binding

/-! ## What a table holds -/

namespace Program

/-- The table tells what the program declares and imports: its declarations in their order, and for
every path one unresolved request, which stands where the path stands first and holds the targets of
all statements with this path. Every target belongs to one request and stands there once. -/
structure IsToldBy (program : Program) (uri : String) (table : SymbolTable) : Prop where
  uri_eq : table.uri = uri
  declared : table.declared = program.declarations.map (Declaration.symbol uri)
  paths : table.imports.map ImportRequest.path =
    (program.imports.map ImportStatement.path).eraseDups
  unresolved : ∀ request ∈ table.imports, request.isResolved = false
  location : ∀ request ∈ table.imports, ∃ first,
    (program.imports.find? fun statement => statement.path = request.path) = some first ∧
      request.location = some (.ofSpan uri first.pathSpan)
  symbols : ∀ request ∈ table.imports, request.symbols =
    ((program.imports.filter fun statement => statement.path = request.path).flatMap
      ImportStatement.targets).map (ImportTarget.symbol program uri)
  whole : (table.imports.flatMap ImportRequest.symbols).Perm
    (program.targets.map (ImportTarget.symbol program uri))
  unique : ∀ target ∈ program.targets, ∃! request, request ∈ table.imports ∧
    target.symbol program uri ∈ request.symbols

variable {program : Program} {uri : String}

theorem request_symbols (path : ImportPath) :
    (program.request uri path).symbols =
      ((program.imports.filter fun statement => statement.path = path).flatMap
        ImportStatement.targets).map (ImportTarget.symbol program uri) := by
  rw [List.map_flatMap]
  rfl

theorem exists_location_request {path : ImportPath} (member : path ∈ program.paths) :
    ∃ first, (program.imports.find? fun statement => statement.path = path) = some first ∧
      (program.request uri path).location = some (.ofSpan uri first.pathSpan) := by
  rcases List.mem_map.mp (List.mem_eraseDups.mp member) with ⟨statement, isIn, same⟩
  have found : (program.imports.find? fun statement => statement.path = path).isSome :=
    List.find?_isSome.mpr ⟨statement, isIn, decide_eq_true same⟩
  rcases Option.isSome_iff_exists.mp found with ⟨first, isFirst⟩
  refine ⟨first, isFirst, ?_⟩
  rw [request, ImportRequest.ofStatements]
  simp only [List.head?_filter, isFirst, Option.map_some]

theorem nodup_symbols (uri : String)
    (localNames : (program.targets.map ImportTarget.localName).Nodup) :
    ((program.requests uri).flatMap ImportRequest.symbols).Nodup := by
  apply (program.symbols_requests uri).nodup_iff.mpr
  exact nodup_map_of_nodup_map (fun _ _ same => congrArg ImportedSymbol.localName same) localNames

theorem existsUnique_request (localNames : (program.targets.map ImportTarget.localName).Nodup)
    {target : ImportTarget} (member : target ∈ program.targets) :
    ∃! request, request ∈ program.requests uri ∧
      target.symbol program uri ∈ request.symbols := by
  have isSymbol : target.symbol program uri ∈
      (program.requests uri).flatMap ImportRequest.symbols :=
    (program.symbols_requests uri).mem_iff.mpr (List.mem_map_of_mem member)
  rcases List.mem_flatMap.mp isSymbol with ⟨request, isRequest, inRequest⟩
  refine ⟨request, ⟨isRequest, inRequest⟩, ?_⟩
  rintro other ⟨isOther, inOther⟩
  by_contra different
  have apart := (List.nodup_flatMap.mp (nodup_symbols uri localNames)).2
  have : Std.Symm (Function.onFun List.Disjoint ImportRequest.symbols) :=
    ⟨fun _ _ => List.Disjoint.symm⟩
  exact apart.forall isOther isRequest different inOther inRequest

theorem isToldBy_of_nodup (localNames : (program.targets.map ImportTarget.localName).Nodup) :
    program.IsToldBy uri
      ⟨uri, program.declarations.map (Declaration.symbol uri), program.requests uri⟩ where
  uri_eq := rfl
  declared := rfl
  paths := by
    rw [requests_eq, List.map_map]
    exact List.map_id' _
  unresolved := by
    intro request member
    rw [ImportRequest.isResolved, target_of_mem_requests request member]
    rfl
  location := by
    intro request member
    rw [requests_eq] at member
    rcases List.mem_map.mp member with ⟨path, isPath, rfl⟩
    exact exists_location_request isPath
  symbols := by
    intro request member
    rw [requests_eq] at member
    rcases List.mem_map.mp member with ⟨path, _, rfl⟩
    exact request_symbols path
  whole := program.symbols_requests uri
  unique := fun _ member => existsUnique_request localNames member

theorem bindings_map_name (program : Program) :
    program.bindings.map Binding.name =
      program.declarations.map Declaration.name ++
        program.targets.map ImportTarget.localName := by
  rw [bindings, List.map_append, List.map_map, List.map_map]
  rfl

/-- A program has a symbol table exactly when the names that it declares and the local names that it
imports are distinct. The table then tells all of these, each in its place; otherwise the clash is
about the first name that is bound once more, declarations before targets. -/
theorem symbolTable_loses_nothing (program : Program) (uri : String) :
    ((∃ table, program.symbolTable uri = .ok table) ↔
      (program.declarations.map Declaration.name ++
        program.targets.map ImportTarget.localName).Nodup) ∧
    match program.symbolTable uri with
    | .ok table => program.IsToldBy uri table
    | .error clash => Binding.IsFirstClash uri
        (program.declarations.map Declaration.binding ++
          program.targets.map ImportTarget.binding) clash := by
  rw [← bindings_map_name, ← Binding.clash?_eq_none_iff uri]
  have noNames : (([] : List Binding).map Binding.name).Nodup := List.nodup_nil
  cases clashes : Binding.clash? uri [] program.bindings with
  | none =>
      have distinct := nodup_names_of_clash?_eq_none clashes
      simp only [symbolTable, clashes]
      exact ⟨⟨fun _ => trivial, fun _ => ⟨_, rfl⟩⟩,
        isToldBy_of_nodup (List.nodup_append.mp distinct).2.1⟩
  | some clash =>
      simp only [symbolTable, clashes]
      refine ⟨⟨?_, ?_⟩, ?_⟩
      · rintro ⟨table, made⟩
        cases made
      · intro none
        cases none
      · have first := Binding.isFirstClash_of_clash?_eq_some noNames clashes
        exact first

end Program

end ServiceModules
