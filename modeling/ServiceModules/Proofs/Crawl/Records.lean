import ServiceModules.Crawl.Result
import ServiceModules.Proofs.Module.Unbound

/-!
Records by identifiers. What can be looked up in a result or in a cache after a record was put into
it: a new record stands behind all others, and nothing that was there before is lost.
-/

namespace ServiceModules

namespace ModuleRecord

theorem lookup_of_mem {entries : List (String × ModuleRecord)} {uri : String}
    {record : ModuleRecord} (distinct : (entries.map Prod.fst).Nodup)
    (member : (uri, record) ∈ entries) : entries.lookup uri = some record := by
  rcases List.append_of_mem member with ⟨front, back, equal⟩
  refine List.lookup_eq_some_iff.mpr ⟨front, back, equal, ?_⟩
  intro entry entryMember
  rw [equal, List.map_append, List.map_cons] at distinct
  have apart := (List.nodup_append.mp distinct).2.2 entry.1 (List.mem_map_of_mem entryMember)
    uri (List.mem_cons_self ..)
  exact bne_iff_ne.mpr apart.symm

end ModuleRecord

namespace CrawlResult

def modules (result : CrawlResult) : List (String × Module) :=
  result.entries.map fun entry => (entry.1, entry.2.module)

theorem modules_map_fst (result : CrawlResult) : result.modules.map Prod.fst = result.uris := by
  rw [modules, uris, List.map_map]
  rfl

theorem contains_iff {result : CrawlResult} {uri : String} :
    result.contains uri = true ↔ uri ∈ result.uris := by
  rw [contains, get?, List.lookup_isSome_iff]
  simp only [uris, List.mem_map]
  constructor
  · rintro ⟨entry, member, equal⟩
    exact ⟨entry, member, (beq_iff_eq.mp equal).symm⟩
  · rintro ⟨entry, member, equal⟩
    exact ⟨entry, member, beq_iff_eq.mpr equal.symm⟩

theorem insertInto_of_not_mem {record : ModuleRecord} {entries : List (String × ModuleRecord)}
    (new : record.uri ∉ entries.map Prod.fst) :
    insertInto record entries = entries ++ [(record.uri, record)] := by
  induction entries with
  | nil => rfl
  | cons entry rest induction =>
      have different : entry.1 ≠ record.uri := by
        intro equal
        exact new (equal ▸ List.mem_cons_self ..)
      rw [insertInto, if_neg different, induction fun member => new (List.mem_cons_of_mem _ member),
        List.cons_append]

theorem entries_insert {result : CrawlResult} {record : ModuleRecord}
    (new : result.contains record.uri = false) :
    (result.insert record).entries = result.entries ++ [(record.uri, record)] := by
  apply insertInto_of_not_mem
  intro member
  rw [contains_iff.mpr member] at new
  cases new

theorem uris_insert {result : CrawlResult} {record : ModuleRecord}
    (new : result.contains record.uri = false) :
    (result.insert record).uris = result.uris ++ [record.uri] := by
  rw [uris, entries_insert new, List.map_append]
  rfl

theorem get?_insert_self {result : CrawlResult} {record : ModuleRecord}
    (new : result.contains record.uri = false) :
    (result.insert record).get? record.uri = some record := by
  have missing : result.entries.lookup record.uri = none := Option.isSome_eq_false_iff.mp new
    |> Option.isNone_iff_eq_none.mp
  rw [get?, entries_insert new, List.lookup_append, missing, Option.none_or]
  exact List.lookup_cons_self

theorem get?_insert_of_get? {result : CrawlResult} {record other : ModuleRecord} {uri : String}
    (new : result.contains record.uri = false) (found : result.get? uri = some other) :
    (result.insert record).get? uri = some other := by
  rw [get?, entries_insert new, List.lookup_append, ← get?, found]
  rfl

theorem modules_insert {result : CrawlResult} {record : ModuleRecord}
    (new : result.contains record.uri = false) :
    (result.insert record).modules = result.modules ++ [(record.uri, record.module)] := by
  rw [modules, entries_insert new, List.map_append]
  rfl

theorem mem_entries_of_get? {result : CrawlResult} {uri : String} {record : ModuleRecord}
    (found : result.get? uri = some record) : (uri, record) ∈ result.entries := by
  rcases List.lookup_eq_some_iff.mp found with ⟨front, back, equal, _⟩
  rw [equal]
  exact List.mem_append_right front (List.mem_cons_self ..)

theorem get?_of_mem_entries {result : CrawlResult} {uri : String} {record : ModuleRecord}
    (distinct : result.uris.Nodup) (member : (uri, record) ∈ result.entries) :
    result.get? uri = some record :=
  ModuleRecord.lookup_of_mem distinct member

end CrawlResult

namespace ModuleCache

def Keeps (cache earlier : ModuleCache) : Prop :=
  ∀ uri record, earlier.get? uri = some record → cache.get? uri = some record

theorem insertIfNew_of_get? {cache : ModuleCache} {record kept : ModuleRecord}
    (found : cache.get? record.uri = some kept) : cache.insertIfNew record = (kept, cache) := by
  rw [insertIfNew, found]

theorem insertIfNew_of_missing {cache : ModuleCache} {record : ModuleRecord}
    (missing : cache.get? record.uri = none) :
    cache.insertIfNew record =
      (record, { cache with entries := cache.entries ++ [(record.uri, record)] }) := by
  rw [insertIfNew, missing]

@[simp] theorem insertIfNew_next (cache : ModuleCache) (record : ModuleRecord) :
    (cache.insertIfNew record).2.next = cache.next := by
  rw [insertIfNew]
  split <;> rfl

theorem mem_entries_of_get? {cache : ModuleCache} {uri : String} {record : ModuleRecord}
    (found : cache.get? uri = some record) : (uri, record) ∈ cache.entries := by
  rcases List.lookup_eq_some_iff.mp found with ⟨front, back, equal, _⟩
  rw [equal]
  exact List.mem_append_right front (List.mem_cons_self ..)

theorem get?_of_mem_entries {cache : ModuleCache} {uri : String} {record : ModuleRecord}
    (distinct : cache.uris.Nodup) (member : (uri, record) ∈ cache.entries) :
    cache.get? uri = some record :=
  ModuleRecord.lookup_of_mem distinct member

theorem get?_eq_none_iff {cache : ModuleCache} {uri : String} :
    cache.get? uri = none ↔ uri ∉ cache.uris := by
  rw [get?, List.lookup_eq_none_iff, uris]
  constructor
  · intro missing member
    rcases List.mem_map.mp member with ⟨entry, entryMember, equal⟩
    exact bne_iff_ne.mp (missing entry entryMember) equal.symm
  · intro missing entry member
    apply bne_iff_ne.mpr
    intro equal
    exact missing (equal ▸ List.mem_map_of_mem member)

theorem entries_insertIfNew (cache : ModuleCache) (record : ModuleRecord) :
    (cache.insertIfNew record).2.entries = cache.entries ∨
      cache.get? record.uri = none ∧
        (cache.insertIfNew record).2.entries = cache.entries ++ [(record.uri, record)] := by
  cases found : cache.get? record.uri with
  | some kept => exact .inl (by rw [insertIfNew_of_get? found])
  | none => exact .inr ⟨rfl, by rw [insertIfNew_of_missing found]⟩

theorem get?_insertIfNew_of_get? {cache : ModuleCache} {record earlier : ModuleRecord}
    {uri : String} (found : cache.get? uri = some earlier) :
    (cache.insertIfNew record).2.get? uri = some earlier := by
  rcases entries_insertIfNew cache record with equal | ⟨_, equal⟩
  · rw [get?, equal]
    exact found
  · rw [get?, equal, List.lookup_append, ← get?, found]
    rfl

end ModuleCache

end ServiceModules
