import ServiceModules.Proofs.Crawl.Sequence
import ServiceModules.Proofs.Module.Sites
import ServiceModules.Proofs.References.Insertion

/-!
Resolving the imported symbols of a crawl. It succeeds exactly when every imported name is declared
where its request leads to, and then every place that refers to an imported name is listed once, in
the group of the module and under the symbol that it refers to.
-/

namespace ServiceModules

namespace SymbolUse

def names (use : SymbolUse) (uri name : String) : Bool :=
  use.request.target = some uri && use.symbol.name = name

theorem names_iff {use : SymbolUse} {uri name : String} :
    use.names uri name = true ↔ use.request.target = some uri ∧ use.symbol.name = name := by
  rw [names, Bool.and_eq_true, decide_eq_true_eq, decide_eq_true_eq]

end SymbolUse

namespace CrawlResult

variable {result : CrawlResult} {references final : References} {use : SymbolUse}
  {uses : List SymbolUse} {symbol : Symbol}

/-! ## Collecting uses one by one -/

theorem collect_cons_of_ok (rest : List SymbolUse)
    (declared : result.declaration use = .ok symbol) :
    result.collect references (use :: rest) =
      result.collect (references.insert symbol use.symbol.sites) rest := by
  rw [collect, declared]

theorem exists_declaration_of_collect {rest : List SymbolUse}
    (collected : result.collect references (use :: rest) = .ok final) :
    ∃ symbol, result.declaration use = .ok symbol ∧
      result.collect (references.insert symbol use.symbol.sites) rest = .ok final := by
  rw [collect] at collected
  split at collected
  · cases collected
  · next symbol declared => exact ⟨symbol, declared, collected⟩

theorem exists_collect_iff :
    (∃ final, result.collect references uses = .ok final) ↔
      ∀ use ∈ uses, ∃ symbol, result.declaration use = .ok symbol := by
  induction uses generalizing references with
  | nil =>
      constructor
      · simp
      · exact fun _ => ⟨references, rfl⟩
  | cons use rest induction =>
      constructor
      · rintro ⟨final, collected⟩ other member
        rcases exists_declaration_of_collect collected with ⟨symbol, declared, restCollected⟩
        rcases List.mem_cons.mp member with rfl | member
        · exact ⟨symbol, declared⟩
        · exact induction.mp ⟨final, restCollected⟩ other member
      · intro declared
        rcases declared use (List.mem_cons_self ..) with ⟨symbol, here⟩
        rw [collect_cons_of_ok rest here]
        exact induction.mpr fun other member => declared other (List.mem_cons_of_mem use member)

theorem isMap_collect (isMap : references.IsMap)
    (collected : result.collect references uses = .ok final) : final.IsMap := by
  induction uses generalizing references with
  | nil =>
      cases collected
      exact isMap
  | cons use rest induction =>
      rcases exists_declaration_of_collect collected with ⟨symbol, _, restCollected⟩
      exact induction (isMap.insert symbol use.symbol.sites) restCollected

theorem sites_collect_perm (collected : result.collect references uses = .ok final) :
    final.sites.Perm (references.sites ++ uses.flatMap fun use => use.symbol.sites) := by
  induction uses generalizing references with
  | nil =>
      cases collected
      rw [List.flatMap_nil, List.append_nil]
  | cons use rest induction =>
      rcases exists_declaration_of_collect collected with ⟨symbol, _, restCollected⟩
      rw [List.flatMap_cons, ← List.append_assoc]
      exact (induction restCollected).trans (References.sites_insert_perm.append_right _)

theorem mem_entries_collect (collected : result.collect references uses = .ok final)
    {group : ModuleSites} {entry : SymbolSites} (member : group ∈ final)
    (listed : entry ∈ group.symbols) :
    (∃ use ∈ uses, result.declaration use = .ok entry.symbol) ∨
      ∃ before ∈ references, ∃ entryBefore ∈ before.symbols,
        entryBefore.symbol = entry.symbol := by
  induction uses generalizing references with
  | nil =>
      cases collected
      exact .inr ⟨group, member, entry, listed, rfl⟩
  | cons use rest induction =>
      rcases exists_declaration_of_collect collected with ⟨symbol, declared, restCollected⟩
      rcases induction restCollected with
        ⟨other, otherMember, otherDeclared⟩ |
          ⟨before, beforeMember, entryBefore, listedBefore, same⟩
      · exact .inl ⟨other, List.mem_cons_of_mem _ otherMember, otherDeclared⟩
      · rw [← same]
        rcases References.mem_entries_insert beforeMember listedBefore with
          ⟨_, inserted⟩ | ⟨earlier, earlierMember, _, entryEarlier, listedEarlier, earlierSame⟩
        · rw [inserted]
          exact .inl ⟨use, List.mem_cons_self .., declared⟩
        · exact .inr ⟨earlier, earlierMember, entryEarlier, listedEarlier, earlierSame⟩

/-- What is listed for a symbol: what was listed before, and then the places of every use that
stands for it. -/
theorem sitesOf?_collect {names : SymbolUse → Bool}
    (standFor : ∀ use ∈ uses, names use = true ↔ result.declaration use = .ok symbol)
    (collected : result.collect references uses = .ok final) :
    final.sitesOf? symbol.moduleUri symbol =
      if uses.any names then
        some ((references.sitesOf? symbol.moduleUri symbol).getD [] ++
          (uses.filter names).flatMap fun use => use.symbol.sites)
      else references.sitesOf? symbol.moduleUri symbol := by
  induction uses generalizing references with
  | nil =>
      cases collected
      rfl
  | cons use rest induction =>
      have standForRest := fun other member => standFor other (List.mem_cons_of_mem use member)
      rcases exists_declaration_of_collect collected with ⟨used, declared, restCollected⟩
      rw [induction standForRest restCollected]
      by_cases named : names use = true
      · have same : used = symbol := by
          have here := (standFor use (List.mem_cons_self ..)).mp named
          rw [declared] at here
          cases here
          rfl
        rw [same, References.sitesOf?_insert_self, List.any_cons, named, Bool.true_or, if_pos rfl,
          List.filter_cons_of_pos named, List.flatMap_cons, Option.getD_some]
        -- More uses of the symbol may follow, or this was the last one.
        split
        · rw [List.append_assoc]
        · next none =>
          have noMore : rest.filter names = [] := by
            rw [List.filter_eq_nil_iff]
            intro other member otherNamed
            exact none (List.any_eq_true.mpr ⟨other, member, otherNamed⟩)
          rw [noMore, List.flatMap_nil, List.append_nil]
      · have different : symbol ≠ used := by
          rintro rfl
          exact named ((standFor use (List.mem_cons_self ..)).mpr declared)
        rw [References.sitesOf?_insert_of_ne different, List.any_cons,
          Bool.eq_false_iff.mpr named, Bool.false_or, List.filter_cons_of_neg named]

/-! ## What a use stands for -/

theorem declaration_eq_ok_iff :
    result.declaration use = .ok symbol ↔
      ∃ target record, use.request.target = some target ∧ result.get? target = some record ∧
        record.module.table.lookup use.symbol.name = some symbol := by
  constructor
  · intro declared
    rw [declaration] at declared
    split at declared
    · cases declared
    · next target bound =>
      split at declared
      · cases declared
      · next record found =>
        split at declared
        · next other looked =>
          cases declared
          exact ⟨target, record, bound, found, looked⟩
        · cases declared
  · rintro ⟨target, record, bound, found, looked⟩
    rw [declaration, bound]
    simp only [found, looked]

structure IsRead (result : CrawlResult) : Prop where
  distinct : result.uris.Nodup
  named : ∀ uri record, (uri, record) ∈ result.entries → record.uri = uri
  read : ∀ record ∈ result.records, record.module.IsRead

theorem IsRead.of_get? (isRead : result.IsRead) {uri : String} {record : ModuleRecord}
    (found : result.get? uri = some record) : record.uri = uri ∧ record.module.IsRead := by
  have member := mem_entries_of_get? found
  exact ⟨isRead.named uri record member, isRead.read record (List.mem_map_of_mem member)⟩

theorem IsRead.names_iff_declaration (isRead : result.IsRead) {uri : String}
    {record : ModuleRecord} (found : result.get? uri = some record)
    (member : symbol ∈ record.module.table.declared) :
    use.names uri symbol.name = true ↔ result.declaration use = .ok symbol := by
  rcases isRead.of_get? found with ⟨named, read⟩
  rw [SymbolUse.names_iff, declaration_eq_ok_iff]
  constructor
  · rintro ⟨bound, sameName⟩
    exact ⟨uri, record, bound, found, read.lookup_eq_some_iff.mpr ⟨member, sameName.symm⟩⟩
  · rintro ⟨target, other, bound, foundOther, looked⟩
    rcases isRead.of_get? foundOther with ⟨otherNamed, otherRead⟩
    rcases otherRead.lookup_eq_some_iff.mp looked with ⟨otherMember, sameName⟩
    -- The symbol carries the identifier of its module, so that no other module declares it.
    have owner : symbol.moduleUri = uri := (read.moduleUri_of_mem_declared member).trans named
    have otherOwner : symbol.moduleUri = target :=
      (otherRead.moduleUri_of_mem_declared otherMember).trans otherNamed
    rw [owner] at otherOwner
    exact ⟨by rw [bound, otherOwner], sameName.symm⟩

theorem IsRead.nodup_sites (isRead : result.IsRead) :
    (result.symbolUses.flatMap fun use => use.symbol.sites).Nodup := by
  have byModule : (result.symbolUses.flatMap fun use => use.symbol.sites) =
      result.records.flatMap fun record => record.module.sites := by
    rw [symbolUses, List.flatMap_assoc]
    rfl
  have uris : result.records.map ModuleRecord.uri = result.uris := by
    rw [records, CrawlResult.uris, List.map_map]
    exact List.map_congr_left fun entry member => isRead.named entry.1 entry.2 member
  have apart := isRead.distinct
  rw [← uris, List.Nodup, List.pairwise_map] at apart
  rw [byModule, List.nodup_flatMap]
  refine ⟨fun record member => (isRead.read record member).nodup_sites, ?_⟩
  apply List.Pairwise.imp_of_mem _ apart
  intro left right leftMember rightMember different site inLeft inRight
  apply different
  have leftFile := (isRead.read left leftMember).file_of_mem_sites inLeft
  have rightFile := (isRead.read right rightMember).file_of_mem_sites inRight
  exact leftFile.symm.trans rightFile

/-! ## The references of a result -/

theorem exists_references_iff :
    (∃ references, result.references = .ok references) ↔
      ∀ use ∈ result.symbolUses, ∃ target record, use.request.target = some target ∧
        result.get? target = some record ∧
        use.symbol.name ∈ record.module.table.declaredNames := by
  rw [CrawlResult.references, exists_collect_iff]
  constructor
  · intro declared use member
    rcases declared use member with ⟨symbol, here⟩
    rcases declaration_eq_ok_iff.mp here with ⟨target, record, bound, found, looked⟩
    exact ⟨target, record, bound, found, Module.exists_lookup_iff.mp ⟨symbol, looked⟩⟩
  · intro declared use member
    rcases declared use member with ⟨target, record, bound, found, name⟩
    rcases Module.exists_lookup_iff.mpr name with ⟨symbol, looked⟩
    exact ⟨symbol, declaration_eq_ok_iff.mpr ⟨target, record, bound, found, looked⟩⟩

/-- The references leave nothing out and add nothing: the places listed for a declared symbol are
those of the uses of its name in its module, in their order, no other symbol is listed, and every
place of every use is listed once. -/
structure Exhausts (references : References) (result : CrawlResult) : Prop where
  isMap : references.IsMap
  listed : ∀ uri record symbol, result.get? uri = some record →
    symbol ∈ record.module.table.declared →
    references.sitesOf? uri symbol =
      if result.symbolUses.any fun use => use.names uri symbol.name then
        some ((result.symbolUses.filter fun use => use.names uri symbol.name).flatMap
          fun use => use.symbol.sites)
      else none
  declared : ∀ group ∈ references, ∀ entry ∈ group.symbols, ∃ record,
    result.get? group.uri = some record ∧ entry.symbol ∈ record.module.table.declared
  complete : references.sites.Perm (result.symbolUses.flatMap fun use => use.symbol.sites)
  distinct : references.sites.Nodup

theorem IsRead.exhausts (isRead : result.IsRead) (resolved : result.references = .ok references) :
    Exhausts references result := by
  rw [CrawlResult.references] at resolved
  have isMap := isMap_collect References.isMap_nil resolved
  have complete := sites_collect_perm resolved
  refine
    { isMap := isMap
      listed := ?_
      declared := ?_
      complete := complete
      distinct := complete.nodup_iff.mpr isRead.nodup_sites }
  · intro uri record symbol found member
    rcases isRead.of_get? found with ⟨named, read⟩
    have owner : symbol.moduleUri = uri := (read.moduleUri_of_mem_declared member).trans named
    have listed := sitesOf?_collect (fun use _ => isRead.names_iff_declaration found member)
      resolved
    rw [owner] at listed
    exact listed
  · intro group member entry listed
    rcases mem_entries_collect resolved member listed with
      ⟨use, _, declared⟩ | ⟨before, beforeMember, _⟩
    · rcases declaration_eq_ok_iff.mp declared with ⟨target, record, _, found, looked⟩
      rcases isRead.of_get? found with ⟨named, read⟩
      have declaredHere := (read.lookup_eq_some_iff.mp looked).1
      have owner : entry.symbol.moduleUri = target :=
        (read.moduleUri_of_mem_declared declaredHere).trans named
      rw [← isMap.owned group member entry listed, owner]
      exact ⟨record, found, declaredHere⟩
    · cases beforeMember

theorem exists_entry_of_mem_symbolUses (member : use ∈ result.symbolUses) :
    ∃ entry ∈ result.entries, use.request ∈ entry.2.module.table.imports := by
  rcases List.mem_flatMap.mp member with ⟨record, recordMember, useMember⟩
  rcases List.mem_map.mp recordMember with ⟨entry, entryMember, rfl⟩
  rcases List.mem_map.mp useMember with ⟨pair, pairMember, rfl⟩
  rcases List.mem_flatMap.mp pairMember with ⟨request, requestMember, imported⟩
  rcases List.mem_map.mp imported with ⟨symbol, _, rfl⟩
  exact ⟨entry, entryMember, requestMember⟩

end CrawlResult

namespace CrawlSequence

variable {sequence : CrawlSequence} {result : CrawlResult}

theorem Sound.isRead (sound : sequence.Sound) : sequence.current.result.IsRead where
  distinct := sound.integrity.distinct
  named := sound.integrity.named
  read := fun record member => sound.read record (mem_records.mpr (.inr (.inl member)))

/-- Resolving what a crawl has come to is exhaustive. Every request leads to a module of the result,
so that resolving fails only at a name that is not declared there. -/
theorem Reachable.references_exhaustive (reachable : sequence.Reachable)
    (finished : sequence.current.outcome? = some (.ok result)) :
    (∀ use ∈ result.symbolUses, ∃ target record, use.request.target = some target ∧
      result.get? target = some record) ∧
    ((∃ references, result.references = .ok references) ↔
      ∀ use ∈ result.symbolUses, ∃ target record, use.request.target = some target ∧
        result.get? target = some record ∧
        use.symbol.name ∈ record.module.table.declaredNames) ∧
    ∀ references, result.references = .ok references →
      CrawlResult.Exhausts references result := by
  have sound := reachable.sound
  refine ⟨?_, CrawlResult.exists_references_iff, ?_⟩
  · intro use member
    rcases CrawlResult.exists_entry_of_mem_symbolUses member with ⟨entry, found, request⟩
    exact sound.integrity.exists_record_of_outcome? finished found request
  · intro references resolved
    rcases Crawl.eq_of_outcome?_eq_ok finished with ⟨_, _, rfl⟩
    exact sound.isRead.exhausts resolved

/-! A root that imports itself and, under two names, a module that imports it. -/

def entwinedText : String :=
  "from a import A as E\nfrom b import B as C, B as D\ntype A: C\ntype F: D"

def entwinedSurroundings : Surroundings :=
  .ofTexts [("a", entwinedText), ("b", "from a import A\ntype B: A")]

def entwinedRoot : Module := (Module.ofText false "a" entwinedText).toOption.getD default

def entwined : CrawlSequence :=
  ((((initial.receive entwinedRoot).start entwinedSurroundings.world ⟨entwinedRoot, 0⟩).advance
    default entwinedSurroundings.world).advance default entwinedSurroundings.world).advance
    default entwinedSurroundings.world

theorem entwined_reachable : entwined.Reachable := by
  have read : Module.ofText false "a" entwinedText = .ok entwinedRoot := by cbv
  have calm : entwinedSurroundings.world.IsUndisturbed := entwinedSurroundings.world_isUndisturbed
  exact .tail (.tail (.tail (.tail (.tail .refl
    (.receive entwinedRoot (Module.isRead_of_ofText_eq_ok read)))
    (.start entwinedSurroundings.world _ (List.mem_cons_self ..)))
    (.advance default _ calm)) (.advance default _ calm)) (.advance default _ calm)

theorem references_exhaustive_entwined :
    entwined.Reachable ∧
      ∃ result references, entwined.current.outcome? = some (.ok result) ∧
        result.references = .ok references ∧ CrawlResult.Exhausts references result ∧
        references.map ModuleSites.uri = ["a", "b"] := by
  have comes : entwined.current.outcome? = some (.ok entwined.current.result) ∧
      entwined.current.result.references =
        .ok (entwined.current.result.references.toOption.getD []) ∧
      (entwined.current.result.references.toOption.getD []).map ModuleSites.uri = ["a", "b"] := by
    cbv
  rcases comes with ⟨finished, resolved, uris⟩
  exact ⟨entwined_reachable, _, _, finished, resolved,
    (entwined_reachable.references_exhaustive finished).2.2 _ resolved, uris⟩

end CrawlSequence

end ServiceModules
