import ServiceModules.Proofs.Program.Imports
import ServiceModules.Proofs.References.Resolution

/-!
Names that are imported and not declared. Resolving a crawl ends with the first of them: in the
first module that has one, the first in the order of the requests of this module. An import that
stands before it in the text, but with a path that is first used later on, is not told.
-/

namespace ServiceModules

theorem findSome?_flatMap {α β γ : Type} (find : β → Option γ) (pieces : α → List β)
    (items : List α) : (items.flatMap pieces).findSome? find =
      items.findSome? fun item => (pieces item).findSome? find := by
  induction items with
  | nil => rfl
  | cons item rest induction =>
      rw [List.flatMap_cons, List.findSome?_append, induction, List.findSome?_cons]
      cases (pieces item).findSome? find <;> rfl

namespace CrawlResult

variable {result : CrawlResult} {references : References} {fault : Fault} {module : Module}
  {single : Import} {searched : ModuleRecord}

/-! ## The first fault -/

def fault? (result : CrawlResult) (use : SymbolUse) : Option Fault :=
  match result.declaration use with
  | .error fault => some fault
  | .ok _ => none

theorem collect_eq_error_iff (result : CrawlResult) (references : References)
    (uses : List SymbolUse) (fault : Fault) :
    result.collect references uses = .error fault ↔
      uses.findSome? result.fault? = some fault := by
  induction uses generalizing references with
  | nil => simp [collect]
  | cons use rest induction =>
      cases declared : result.declaration use with
      | error other => simp [collect, fault?, declared]
      | ok symbol => simp [collect, fault?, declared, induction]

/-! ## Missing names -/

/-- The path of an import leads to the module `searched`, which does not declare its name. -/
structure Lacks (result : CrawlResult) (module : Module) (single : Import)
    (searched : ModuleRecord) : Prop where
  leads : ∃ request ∈ module.table.imports, request.path = single.path ∧
    ∃ uri, request.target = some uri ∧ result.get? uri = some searched
  undeclared : single.target.name ∉ searched.module.table.declaredNames

/-- Something that the module imports is missing where its path leads to. -/
def Misses (result : CrawlResult) (module : Module) (single : Import) : Prop :=
  single ∈ module.program.imported ∧ ∃ searched, result.Lacks module single searched

def missing (module : Module) (single : Import) (searched : ModuleRecord) : UndeclaredSymbol where
  name := single.target.name
  location := some (.ofSpan module.uri single.target.span)
  moduleUri := searched.uri
  path := single.path
  declared := Text.sorted searched.module.table.declaredNames
  text := module.text

/-- The module was read from a text, and its requests lead to modules of the result. -/
structure Knows (result : CrawlResult) (module : Module) : Prop where
  read : module.IsRead
  leads : ∀ request ∈ module.table.imports, ∃ uri record,
    request.target = some uri ∧ result.get? uri = some record

def importFault? (result : CrawlResult) (module : Module) (single : Import) : Option Fault :=
  (module.table.imports.find? fun request => request.path = single.path).bind fun request =>
    result.fault? ⟨module, request, single.target.symbol module.program module.uri⟩

theorem fault?_eq {request : ImportRequest} {uri : String} (path : request.path = single.path)
    (bound : request.target = some uri) (found : result.get? uri = some searched) :
    result.fault? ⟨module, request, single.target.symbol module.program module.uri⟩ =
      if single.target.name ∈ searched.module.table.declaredNames then none
      else some (.undeclared (missing module single searched)) := by
  have isLooked : (∃ symbol, searched.module.table.lookup single.target.name = some symbol) ↔
      single.target.name ∈ searched.module.table.declaredNames := Module.exists_lookup_iff
  cases looked : searched.module.table.lookup single.target.name with
  | none =>
      simp [fault?, declaration, bound, found, ImportTarget.symbol, looked, ← isLooked, missing,
        path]
  | some symbol =>
      simp [fault?, declaration, bound, found, ImportTarget.symbol, looked, ← isLooked]

theorem Knows.importFault?_eq_some_iff (knows : result.Knows module) :
    result.importFault? module single = some fault ↔
      ∃ searched, result.Lacks module single searched ∧
        fault = .undeclared (missing module single searched) := by
  rw [importFault?, Option.bind_eq_some_iff]
  constructor
  · intro wrong
    obtain ⟨request, found, faulty⟩ := wrong
    have isRequest := List.mem_of_find?_eq_some found
    have samePath := List.find?_some found
    have path : request.path = single.path := of_decide_eq_true samePath
    obtain ⟨uri, searched, bound, stored⟩ := knows.leads request isRequest
    rw [fault?_eq path bound stored] at faulty
    split at faulty
    · cases faulty
    · next undeclared =>
      cases faulty
      exact ⟨searched, ⟨⟨request, isRequest, path, uri, bound, stored⟩, undeclared⟩, rfl⟩
  · intro lacking
    obtain ⟨searched, ⟨leads, undeclared⟩, same⟩ := lacking
    obtain ⟨request, isRequest, path, uri, bound, stored⟩ := leads
    have isFirst := find?_of_nodup_map knows.read.nodup_paths isRequest
    rw [path] at isFirst
    refine ⟨request, isFirst, ?_⟩
    rw [fault?_eq path bound stored, if_neg undeclared, same]

theorem Knows.map_fault? (knows : result.Knows module) :
    module.symbolUses.map result.fault? =
      module.program.importedByPath.map (result.importFault? module) := by
  -- What is wrong with a use depends on its path and its symbol only.
  let fault (entry : ImportPath × ImportedSymbol) : Option Fault :=
    (module.table.imports.find? fun request => request.path = entry.1).bind fun request =>
      result.fault? ⟨module, request, entry.2⟩
  have ofUse : ∀ use ∈ module.table.importedSymbols,
      result.fault? ⟨module, use.1, use.2⟩ = fault (use.1.path, use.2) := by
    intro use isUse
    obtain ⟨request, isRequest, isSymbol⟩ := List.mem_flatMap.mp isUse
    obtain ⟨symbol, _, same⟩ := List.mem_map.mp isSymbol
    have isFirst := find?_of_nodup_map knows.read.nodup_paths isRequest
    cases same
    simp only [fault, isFirst, Option.bind_some]
  have uses := congrArg (List.map fault) knows.read.importedSymbols_eq
  rw [List.map_map, List.map_map] at uses
  rw [Module.symbolUses, List.map_map]
  exact (List.map_congr_left ofUse).trans uses

theorem Knows.findSome?_symbolUses (knows : result.Knows module) :
    module.symbolUses.findSome? result.fault? =
      module.program.importedByPath.findSome? (result.importFault? module) := by
  have faults := congrArg (List.findSome? id) knows.map_fault?
  rw [List.findSome?_map, List.findSome?_map] at faults
  exact faults

/-! ## What is reported -/

/-- The fault tells the import `single` of the module `record`, whose name is missing in the module
`searched`. No module before has a missing name, and in this one no other missing name comes earlier
in the order of its requests. It is also the first one in the text unless one stands before it whose
path is first used later on. -/
structure Reports (result : CrawlResult) (record : ModuleRecord) (single : Import)
    (searched : ModuleRecord) (fault : Fault) : Prop where
  isImport : single ∈ record.module.program.imported
  lacks : result.Lacks record.module single searched
  fault_eq : fault = .undeclared (missing record.module single searched)
  firstModule : ∃ before after, result.records = before ++ record :: after ∧
    ∀ earlier ∈ before, ∀ other, ¬ result.Misses earlier.module other
  firstImport : ∀ other, result.Misses record.module other →
    other = single ∨ record.module.program.Precedes single other
  firstWritten :
    (∀ other, result.Misses record.module other → other = single ∨ single.Before other) ↔
      ∀ other, result.Misses record.module other →
        record.module.program.firstUse single.path < record.module.program.firstUse other.path →
          single.Before other

theorem Knows.not_misses (knows : result.Knows module)
    (clear : module.symbolUses.findSome? result.fault? = none) : ¬ result.Misses module single := by
  intro misses
  obtain ⟨isImport, searched, lacks⟩ := misses
  rw [knows.findSome?_symbolUses, List.findSome?_eq_none_iff] at clear
  have faulty := knows.importFault?_eq_some_iff.mpr ⟨searched, lacks, rfl⟩
  rw [clear single (Program.mem_importedByPath.mpr isImport)] at faulty
  cases faulty

theorem Knows.exists_first (knows : result.Knows module)
    (faulty : module.symbolUses.findSome? result.fault? = some fault) :
    ∃ single ∈ module.program.imported, ∃ searched, result.Lacks module single searched ∧
      fault = .undeclared (missing module single searched) ∧
      ∀ other, result.Misses module other →
        other = single ∨ module.program.Precedes single other := by
  rw [knows.findSome?_symbolUses, List.findSome?_eq_some_iff] at faulty
  obtain ⟨before, single, after, split, wrong, clear⟩ := faulty
  obtain ⟨searched, lacks, fault_eq⟩ := knows.importFault?_eq_some_iff.mp wrong
  have isListed : single ∈ module.program.importedByPath := by simp [split]
  refine ⟨single, Program.mem_importedByPath.mp isListed, searched, lacks, fault_eq, ?_⟩
  intro other misses
  obtain ⟨isImport, otherSearched, otherLacks⟩ := misses
  have otherWrong := knows.importFault?_eq_some_iff.mpr ⟨otherSearched, otherLacks, rfl⟩
  have otherListed := Program.mem_importedByPath.mpr isImport
  have ordered := knows.read.pairwise_importedByPath
  rw [split] at otherListed ordered
  rcases List.mem_append.mp otherListed with isBefore | isLater
  · rw [clear other isBefore] at otherWrong
    cases otherWrong
  · rcases List.mem_cons.mp isLater with same | isAfter
    · exact .inl same
    · have later := (List.pairwise_cons.mp (List.pairwise_append.mp ordered).2.1).1
      exact .inr (later other isAfter)

/-- Resolving fails exactly when something is missing, and then with the first missing import of the
first module that has one. -/
theorem references_report (knows : ∀ record ∈ result.records, result.Knows record.module) :
    match result.references with
    | .ok _ => ∀ record ∈ result.records, ∀ single, ¬ result.Misses record.module single
    | .error fault => ∃ record single searched, result.Reports record single searched fault := by
  have faults := collect_eq_error_iff result [] result.symbolUses
  have byRecord : result.symbolUses.findSome? result.fault? =
      result.records.findSome? fun record => record.module.symbolUses.findSome? result.fault? :=
    findSome?_flatMap ..
  split
  · next collected resolved =>
    intro record isRecord single
    apply (knows record isRecord).not_misses
    have clear : result.symbolUses.findSome? result.fault? = none := by
      apply Option.eq_none_iff_forall_ne_some.mpr
      intro fault faulty
      have failed := (faults fault).mpr faulty
      rw [references, failed] at resolved
      cases resolved
    rw [byRecord, List.findSome?_eq_none_iff] at clear
    exact clear record isRecord
  · next fault failed =>
    have faulty := (faults fault).mp failed
    rw [byRecord, List.findSome?_eq_some_iff] at faulty
    obtain ⟨before, record, after, split, here, clear⟩ := faulty
    have isRecord : record ∈ result.records := by simp [split]
    obtain ⟨single, isImport, searched, lacks, fault_eq, first⟩ :=
      (knows record isRecord).exists_first here
    refine ⟨record, single, searched, isImport, lacks, fault_eq, ⟨before, after, split, ?_⟩, first,
      ?_⟩
    · intro earlier isEarlier other
      have isResult : earlier ∈ result.records := by simp [split, isEarlier]
      exact (knows earlier isResult).not_misses (clear earlier isEarlier)
    · constructor
      · intro written other misses later
        rcases written other misses with same | before
        · rw [same] at later
          omega
        · exact before
      · intro written other misses
        rcases first other misses with same | later | ⟨_, before⟩
        · exact .inl same
        · exact .inr (written other misses later)
        · exact .inr before

end CrawlResult

namespace CrawlSequence

variable {sequence : CrawlSequence} {result : CrawlResult}

theorem Reachable.knows (reachable : sequence.Reachable)
    (finished : sequence.current.outcome? = some (.ok result)) :
    ∀ record ∈ result.records, result.Knows record.module := by
  intro record isRecord
  have sound := reachable.sound
  obtain ⟨entry, isEntry, same⟩ := List.mem_map.mp isRecord
  constructor
  · obtain ⟨_, _, equal⟩ := Crawl.eq_of_outcome?_eq_ok finished
    exact sound.isRead.read record (equal ▸ isRecord)
  · intro request isRequest
    rw [← same] at isRequest
    exact sound.integrity.exists_record_of_outcome? finished isEntry isRequest

/-- Whatever a crawl has come to, resolving it tells the first missing import, in the order of the
requests, of the first module that has one. -/
theorem Reachable.first_missing (reachable : sequence.Reachable)
    (finished : sequence.current.outcome? = some (.ok result)) :
    match result.references with
    | .ok _ => ∀ record ∈ result.records, ∀ single, ¬ result.Misses record.module single
    | .error fault => ∃ record single searched, result.Reports record single searched fault :=
  CrawlResult.references_report (reachable.knows finished)

/-! Two statements with one path, neither name declared there or by the statement between them. -/

def interleavedText : String := "from a import X\nfrom b import Y\nfrom a import Z"

def interleavedSurroundings : Surroundings := .ofTexts [("a", "type X: int"), ("b", "")]

def interleavedRoot : Module := (Module.ofText false "m" interleavedText).toOption.getD default

def interleaved : CrawlSequence :=
  (((initial.receive interleavedRoot).start interleavedSurroundings.world
    ⟨interleavedRoot, 0⟩).advance default interleavedSurroundings.world).advance default
    interleavedSurroundings.world

theorem interleaved_reachable : interleaved.Reachable := by
  have read : Module.ofText false "m" interleavedText = .ok interleavedRoot := by cbv
  have calm : interleavedSurroundings.world.IsUndisturbed :=
    interleavedSurroundings.world_isUndisturbed
  exact .tail (.tail (.tail (.tail .refl
    (.receive interleavedRoot (Module.isRead_of_ofText_eq_ok read)))
    (.start interleavedSurroundings.world _ (List.mem_cons_self ..)))
    (.advance default _ calm)) (.advance default _ calm)

def interleavedResult : CrawlResult := interleaved.current.result

def interleavedUndeclared : UndeclaredSymbol :=
  ⟨"Z", some ⟨"m", 3, 15, 3, 16⟩, "a", ⟨0, ["a"]⟩, ["X"], interleavedText⟩

def interleavedRecord : ModuleRecord := interleavedResult.records.headD default

def interleavedImport : Import := interleavedRecord.module.program.imported.getD 1 default

theorem interleaved_comes :
    interleaved.current.outcome? = some (.ok interleavedResult) ∧
      interleavedResult.references = .error (.undeclared interleavedUndeclared) ∧
      interleavedResult.records.head? = some interleavedRecord ∧
      interleavedRecord.module.program.imported[1]? = some interleavedImport ∧
      Location.ofSpan interleavedRecord.uri interleavedImport.target.span = ⟨"m", 2, 15, 2, 16⟩ ∧
      interleavedResult.importFault? interleavedRecord.module interleavedImport =
        some (.undeclared
          ⟨"Y", some ⟨"m", 2, 15, 2, 16⟩, "b", ⟨0, ["b"]⟩, [], interleavedText⟩) := by
  cbv
  exact ⟨rfl, rfl, rfl⟩

theorem first_missing_interleaved :
    interleaved.Reachable ∧ interleaved.current.outcome? = some (.ok interleavedResult) ∧
      ∃ record single searched, interleavedResult.Reports record single searched
        (.undeclared interleavedUndeclared) := by
  obtain ⟨finished, failed, _⟩ := interleaved_comes
  have report := interleaved_reachable.first_missing finished
  rw [failed] at report
  exact ⟨interleaved_reachable, finished, report⟩

/-- What is told need not be the first missing name of the text. Here that is the name in the second
statement, and the one in the third is told, since its path is that of the first. -/
theorem exists_missing_before_reported :
    interleaved.Reachable ∧ interleaved.current.outcome? = some (.ok interleavedResult) ∧
      interleavedResult.references = .error (.undeclared interleavedUndeclared) ∧
      interleavedResult.records.head? = some interleavedRecord ∧
      interleavedResult.Misses interleavedRecord.module interleavedImport ∧
      Location.ofSpan interleavedRecord.uri interleavedImport.target.span = ⟨"m", 2, 15, 2, 16⟩ ∧
      interleavedUndeclared.location = some ⟨"m", 3, 15, 3, 16⟩ := by
  obtain ⟨finished, failed, isFirst, isSecond, place, wrong⟩ := interleaved_comes
  have knows := interleaved_reachable.knows finished interleavedRecord
    (List.mem_of_mem_head? isFirst)
  obtain ⟨searched, lacks, _⟩ := knows.importFault?_eq_some_iff.mp wrong
  exact ⟨interleaved_reachable, finished, failed, isFirst,
    ⟨List.mem_of_getElem? isSecond, searched, lacks⟩, place, rfl⟩

end CrawlSequence

end ServiceModules
