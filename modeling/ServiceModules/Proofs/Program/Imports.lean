import ServiceModules.Proofs.Program.Usages

/-!
What a program imports, name by name. The requests of a program take up one path after the other,
and with each path all statements that have it. This is the order of the text only as long as no
statement with another path stands between.
-/

namespace ServiceModules

structure Import where
  path : ImportPath
  target : ImportTarget
deriving DecidableEq, Repr, Inhabited

namespace Import

def Before (left right : Import) : Prop := left.target.span.start.Before right.target.span.start

end Import

namespace ImportStatement

def singles (statement : ImportStatement) : List Import :=
  statement.targets.map fun target => ⟨statement.path, target⟩

theorem path_of_mem_singles {statement : ImportStatement} {single : Import}
    (isIn : single ∈ statement.singles) : single.path = statement.path := by
  obtain ⟨target, _, same⟩ := List.mem_map.mp isIn
  rw [← same]

theorem filter_singles (statement : ImportStatement) (path : ImportPath) :
    (statement.singles.filter fun single => single.path = path) =
      if statement.path = path then statement.singles else [] := by
  split
  · next same =>
    apply List.filter_eq_self.mpr
    intro single isIn
    simp [path_of_mem_singles isIn, same]
  · next different =>
    apply List.filter_eq_nil_iff.mpr
    intro single isIn
    simp [path_of_mem_singles isIn, different]

end ImportStatement

namespace Program

variable {program : Program} {tokens : Tokens}

def imported (program : Program) : List Import := program.imports.flatMap ImportStatement.singles

def importedByPath (program : Program) : List Import :=
  program.paths.flatMap fun path => program.imported.filter fun single => single.path = path

def firstUse (program : Program) (path : ImportPath) : Nat :=
  (program.imports.map ImportStatement.path).idxOf path

/-- The requests come to `left` before they come to `right`: its path is used first, or they have
one path and `left` is written before. -/
def Precedes (program : Program) (left right : Import) : Prop :=
  program.firstUse left.path < program.firstUse right.path ∨
    left.path = right.path ∧ left.Before right

theorem mem_importedByPath {single : Import} :
    single ∈ program.importedByPath ↔ single ∈ program.imported := by
  rw [importedByPath, List.mem_flatMap]
  constructor
  · intro listed
    obtain ⟨path, _, isIn⟩ := listed
    exact List.mem_of_mem_filter isIn
  · intro isIn
    obtain ⟨statement, isStatement, isSingle⟩ := List.mem_flatMap.mp isIn
    have path := ImportStatement.path_of_mem_singles isSingle
    refine ⟨single.path, List.mem_eraseDups.mpr ?_, List.mem_filter.mpr ⟨isIn, by simp⟩⟩
    exact path ▸ List.mem_map_of_mem isStatement

theorem filter_imported (program : Program) (path : ImportPath) :
    (program.imported.filter fun single => single.path = path) =
      (program.imports.filter fun statement => statement.path = path).flatMap
        ImportStatement.singles := by
  rw [imported, List.filter_flatMap]
  simp only [ImportStatement.filter_singles]
  induction program.imports with
  | nil => rfl
  | cons statement rest induction =>
      by_cases same : statement.path = path <;> simp [List.flatMap_cons, same, induction]

/-! ## Orders -/

theorem pairwise_imported (all : AllFit tokens program.nodes) :
    program.imported.Pairwise Import.Before := by
  have row : ∀ statement ∈ program.imports, Span.InRow statement.span.start statement.span.stop
      (statement.targets.map ImportTarget.span) := by
    intro statement isIn
    obtain ⟨written, isWritten, imports⟩ := List.mem_filterMap.mp isIn
    cases written with
    | declaring _ => cases imports
    | importing other =>
        cases imports
        exact (all.tail.of_mem isWritten).head.inRow rfl (List.mem_singleton_self _) fun _ => rfl
  have statements : program.imports.Pairwise fun left right =>
      left.span.stop.AtMost right.span.start := by
    apply pairwise_selected all
    intro statement written imports
    cases statement with
    | declaring _ => cases imports
    | importing _ =>
        cases imports
        rfl
  rw [imported, List.pairwise_flatMap]
  constructor
  · intro statement isIn
    have starts := (row statement isIn).pairwise_start
    rw [List.pairwise_map] at starts
    rw [ImportStatement.singles, List.pairwise_map]
    exact starts
  · apply statements.imp_of_mem
    intro left right isLeft isRight order first isFirst second isSecond
    obtain ⟨firstTarget, inLeft, sameFirst⟩ := List.mem_map.mp isFirst
    obtain ⟨secondTarget, inRight, sameSecond⟩ := List.mem_map.mp isSecond
    have leftWithin := (row left isLeft).within (List.mem_map_of_mem inLeft)
    have rightWithin := (row right isRight).within (List.mem_map_of_mem inRight)
    rw [← sameFirst, ← sameSecond]
    exact (leftWithin.2.1.trans_atMost leftWithin.2.2).trans_atMost
      (order.trans rightWithin.1)

theorem pairwise_importedByPath (all : AllFit tokens program.nodes) :
    program.importedByPath.Pairwise program.Precedes := by
  rw [importedByPath, List.pairwise_flatMap]
  constructor
  · intro path _
    apply ((pairwise_imported all).filter _).imp_of_mem
    intro left right isLeft isRight before
    have leftPath := of_decide_eq_true (List.mem_filter.mp isLeft).2
    have rightPath := of_decide_eq_true (List.mem_filter.mp isRight).2
    exact .inr ⟨leftPath.trans rightPath.symm, before⟩
  · apply (pairwise_idxOf_eraseDups (program.imports.map ImportStatement.path)).imp
    intro first second order left isLeft right isRight
    have leftPath := of_decide_eq_true (List.mem_filter.mp isLeft).2
    have rightPath := of_decide_eq_true (List.mem_filter.mp isRight).2
    left
    rw [firstUse, firstUse, leftPath, rightPath]
    exact order

end Program

/-! ## Requests -/

theorem Program.requests_flatMap (program : Program) (uri : String) :
    ((program.requests uri).flatMap fun request =>
        request.symbols.map fun symbol => (request.path, symbol)) =
      program.importedByPath.map fun single =>
        (single.path, single.target.symbol program uri) := by
  rw [requests_eq, List.flatMap_map, importedByPath, List.map_flatMap]
  congr 1
  funext path
  rw [request_symbols, filter_imported, List.map_map, List.map_flatMap, List.map_flatMap]
  apply List.flatMap_congr
  intro statement isIn
  have own := of_decide_eq_true (List.mem_filter.mp isIn).2
  have path_eq : (program.request uri path).path = path := rfl
  simp [ImportStatement.singles, own, path_eq]

namespace Module

variable {module : Module}

theorem IsRead.imports_map_unbound (read : module.IsRead) :
    module.table.imports.map ImportRequest.unbound = module.program.requests module.uri := by
  obtain ⟨keepsDocumentation, readText⟩ := read
  obtain ⟨program, _, _, equal⟩ := eq_of_ofText_eq_ok readText
  have same : module.program = program := congrArg Module.program equal
  rw [same]
  exact congrArg (fun other => other.table.imports) equal

theorem IsRead.nodup_paths (read : module.IsRead) :
    (module.table.imports.map ImportRequest.path).Nodup := by
  have paths : module.table.imports.map ImportRequest.path =
      (module.table.imports.map ImportRequest.unbound).map ImportRequest.path := by
    rw [List.map_map]
    rfl
  rw [paths, read.imports_map_unbound, Program.requests_eq, List.map_map]
  exact (List.map_id' _).symm ▸ module.program.nodup_paths

theorem IsRead.importedSymbols_eq (read : module.IsRead) :
    (module.table.importedSymbols.map fun use => (use.1.path, use.2)) =
      module.program.importedByPath.map fun single =>
        (single.path, single.target.symbol module.program module.uri) := by
  rw [← Program.requests_flatMap, ← read.imports_map_unbound, List.flatMap_map,
    SymbolTable.importedSymbols, List.map_flatMap]
  simp only [List.map_map]
  rfl

theorem IsRead.pairwise_importedByPath (read : module.IsRead) :
    module.program.importedByPath.Pairwise module.program.Precedes := by
  obtain ⟨keepsDocumentation, readText⟩ := read
  obtain ⟨program, parsed, _, equal⟩ := eq_of_ofText_eq_ok readText
  have same : module.program = program := congrArg Module.program equal
  rw [same]
  exact Program.pairwise_importedByPath (Program.allFit_of_ofText parsed)

end Module

end ServiceModules
