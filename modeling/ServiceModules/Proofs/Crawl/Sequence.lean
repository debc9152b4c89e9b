import Mathlib
import ServiceModules.Proofs.Crawl.Integrity
import ServiceModules.Proofs.Crawl.Surroundings

/-!
Sequences of crawls on one cache. Callers hold records, of modules that they have read themselves
and of modules that a crawl has come to, and may begin a crawl from any of them. A crawl binds the
requests of its root in place, so that everyone who holds the record sees them bound; the number of
a record tells which record it is. The world may be another one at every step.
-/

namespace ServiceModules

namespace ModuleRecord

/-- The record as it is once the record `changed` has changed in place. -/
def refreshedBy (changed record : ModuleRecord) : ModuleRecord :=
  if record.number = changed.number then changed else record

end ModuleRecord

namespace ModuleCache

def records (cache : ModuleCache) : List ModuleRecord := cache.entries.map Prod.snd

/-- The cache once the record `changed` has changed in place. -/
def refreshedBy (cache : ModuleCache) (changed : ModuleRecord) : ModuleCache :=
  { cache with
    entries := cache.entries.map fun entry => (entry.1, changed.refreshedBy entry.2) }

end ModuleCache

structure CrawlSequence where
  /-- What callers hold. -/
  held : List ModuleRecord
  /-- The last crawl, with the cache that all crawls share. -/
  current : Crawl

namespace CrawlSequence

def initial : CrawlSequence := ⟨[], ⟨CrawlResult.empty, [], ModuleCache.empty, [], none⟩⟩

def records (sequence : CrawlSequence) : List ModuleRecord :=
  sequence.held ++ sequence.current.result.records ++ sequence.current.cache.records

def receive (sequence : CrawlSequence) (module : Module) : CrawlSequence :=
  let (record, cache) := sequence.current.cache.record module
  ⟨record :: sequence.held, { sequence.current with cache := cache }⟩

def start (sequence : CrawlSequence) (world : World) (root : ModuleRecord) : CrawlSequence :=
  let changed := Crawl.expandedRoot world root
  ⟨(sequence.held ++ sequence.current.result.records).map changed.refreshedBy,
    Crawl.start world (sequence.current.cache.refreshedBy changed) root⟩

def advance (sequence : CrawlSequence) (configuration : Configuration) (world : World) :
    CrawlSequence :=
  { sequence with current := sequence.current.step configuration world }

/-- What can happen next. A module that a caller has read may have been bound to anything. -/
inductive Next (sequence : CrawlSequence) : CrawlSequence → Prop
  | receive (module : Module) (read : module.IsRead) : Next sequence (sequence.receive module)
  | start (world : World) (root : ModuleRecord) (member : root ∈ sequence.records) :
      Next sequence (sequence.start world root)
  | advance (configuration : Configuration) (world : World) (calm : world.IsUndisturbed) :
      Next sequence (sequence.advance configuration world)

def Leads : CrawlSequence → CrawlSequence → Prop := Relation.ReflTransGen Next

def Reachable (sequence : CrawlSequence) : Prop := Leads initial sequence

/-! ## The invariant -/

/-- A record has one state wherever it is held, and was read from some text. -/
structure Sound (sequence : CrawlSequence) : Prop where
  integrity : sequence.current.Integrity
  consistent : ∀ record ∈ sequence.records, ∀ other ∈ sequence.records,
    record.number = other.number → record = other
  numbered : ∀ record ∈ sequence.records, record.number < sequence.current.cache.next
  read : ∀ record ∈ sequence.records, record.module.IsRead

variable {sequence later : CrawlSequence}

theorem mem_records {record : ModuleRecord} :
    record ∈ sequence.records ↔
      record ∈ sequence.held ∨ record ∈ sequence.current.result.records ∨
        record ∈ sequence.current.cache.records := by
  rw [records, List.mem_append, List.mem_append, or_assoc]

theorem sound_initial : initial.Sound where
  integrity :=
    { clean := ModuleCache.isClean_empty 0
      distinct := List.nodup_nil
      named := by simp [initial, CrawlResult.empty]
      proceeds := fun _ =>
        { sourced := by simp [initial]
          resolved := by simp [initial, CrawlResult.empty]
          closed := by simp [initial, CrawlResult.empty] } }
  consistent := by simp [records, initial, CrawlResult.records, CrawlResult.empty,
    ModuleCache.records, ModuleCache.empty]
  numbered := by simp [records, initial, CrawlResult.records, CrawlResult.empty,
    ModuleCache.records, ModuleCache.empty]
  read := by simp [records, initial, CrawlResult.records, CrawlResult.empty,
    ModuleCache.records, ModuleCache.empty]

theorem Sound.of_known (sound : sequence.Sound) (integrity : later.current.Integrity)
    (next : later.current.cache.next = sequence.current.cache.next)
    (known : ∀ record ∈ later.records, record ∈ sequence.records) : later.Sound where
  integrity := integrity
  consistent := fun record member other otherMember =>
    sound.consistent record (known record member) other (known other otherMember)
  numbered := fun record member => next ▸ sound.numbered record (known record member)
  read := fun record member => sound.read record (known record member)

theorem Sound.of_fresh (sound : sequence.Sound) (integrity : later.current.Integrity)
    {fresh : ModuleRecord} (number : fresh.number = sequence.current.cache.next)
    (read : fresh.module.IsRead)
    (next : later.current.cache.next = sequence.current.cache.next + 1)
    (known : ∀ record ∈ later.records, record ∈ sequence.records ∨ record = fresh) :
    later.Sound where
  integrity := integrity
  consistent := by
    intro record member other otherMember same
    rcases known record member with old | rfl
    · rcases known other otherMember with otherOld | rfl
      · exact sound.consistent record old other otherOld same
      · have below := sound.numbered record old
        omega
    · rcases known other otherMember with otherOld | rfl
      · have below := sound.numbered other otherOld
        omega
      · rfl
  numbered := by
    intro record member
    rcases known record member with old | rfl
    · have below := sound.numbered record old
      omega
    · omega
  read := by
    intro record member
    rcases known record member with old | rfl
    · exact sound.read record old
    · exact read

theorem Sound.receive (sound : sequence.Sound) {module : Module} (read : module.IsRead) :
    (sequence.receive module).Sound := by
  have integrity : (sequence.receive module).current.Integrity :=
    { clean :=
        { distinct := sound.integrity.clean.distinct
          named := sound.integrity.clean.named
          resolved := sound.integrity.clean.resolved }
      distinct := sound.integrity.distinct
      named := sound.integrity.named
      proceeds := fun running =>
        { sourced := (sound.integrity.proceeds running).sourced
          resolved := (sound.integrity.proceeds running).resolved
          closed := (sound.integrity.proceeds running).closed } }
  have number : (⟨module, sequence.current.cache.next⟩ : ModuleRecord).number =
      sequence.current.cache.next := rfl
  apply sound.of_fresh integrity number read rfl
  intro record member
  rcases mem_records.mp member with held | reached | cached
  · rcases List.mem_cons.mp held with fresh | held
    · exact .inr fresh
    · exact .inl (mem_records.mpr (.inl held))
  · exact .inl (mem_records.mpr (.inr (.inl reached)))
  · exact .inl (mem_records.mpr (.inr (.inr cached)))

theorem Sound.advance (sound : sequence.Sound) {configuration : Configuration} {world : World}
    (calm : world.IsUndisturbed) : (sequence.advance configuration world).Sound := by
  have moves : sequence.current.Moves (sequence.current.step configuration world) :=
    sound.integrity.moves calm
  have integrity := sound.integrity.of_moves moves
  have advanced : sequence.advance configuration world =
      ⟨sequence.held, sequence.current.step configuration world⟩ := rfl
  rw [advanced]
  generalize sequence.current.step configuration world = crawl at moves integrity ⊢
  cases moves with
  | finished | known | broken => exact sound.of_known integrity rfl fun record member => member
  -- A cached record was held before; only a module that was just read is new.
  | @cached _ _ record running queue new hit takes =>
      refine sound.of_known integrity ?_ ?_
      · rfl
      intro other member
      rcases mem_records.mp member with held | reached | cached
      · exact mem_records.mpr (.inl held)
      · rw [CrawlResult.records, Crawl.accept, CrawlResult.entries_insert new, List.map_append]
          at reached
        rcases List.mem_append.mp reached with old | taken
        · exact mem_records.mpr (.inr (.inl old))
        · rw [List.mem_singleton.mp taken]
          exact mem_records.mpr (.inr (.inr (List.mem_map.mpr
            ⟨_, ModuleCache.mem_entries_of_get? hit, rfl⟩)))
      · exact mem_records.mpr (.inr (.inr cached))
  | @taken _ _ _ fresh running queue new miss takes number read =>
      apply sound.of_fresh integrity number read rfl
      intro other member
      rcases mem_records.mp member with held | reached | cached
      · exact .inl (mem_records.mpr (.inl held))
      · rw [CrawlResult.records, Crawl.accept, CrawlResult.entries_insert new, List.map_append]
          at reached
        rcases List.mem_append.mp reached with old | taken
        · exact .inl (mem_records.mpr (.inr (.inl old)))
        · exact .inr (List.mem_singleton.mp taken)
      · rw [ModuleCache.records, Crawl.accept, List.map_append] at cached
        rcases List.mem_append.mp cached with old | taken
        · exact .inl (mem_records.mpr (.inr (.inr old)))
        · exact .inr (List.mem_singleton.mp taken)

/-! A record that changes in place. -/

@[simp] theorem refreshedBy_number (changed record : ModuleRecord) :
    (changed.refreshedBy record).number = record.number := by
  rw [ModuleRecord.refreshedBy]
  split
  · next same => exact same.symm
  · rfl

theorem expandedRoot_of_isFullyResolved {world : World} {root : ModuleRecord}
    (resolved : root.module.table.isFullyResolved = true) :
    Crawl.expandedRoot world root = root := by
  rw [Crawl.expandedRoot, Expansion.ofModule_of_isFullyResolved resolved, Expansion.expanded,
    Module.withImports_self]

theorem Sound.refreshedBy_of_isFullyResolved (sound : sequence.Sound)
    {root record : ModuleRecord} (rootMember : root ∈ sequence.records) (world : World)
    (member : record ∈ sequence.records)
    (resolved : record.module.table.isFullyResolved = true) :
    (Crawl.expandedRoot world root).refreshedBy record = record := by
  rw [ModuleRecord.refreshedBy]
  split
  · next sameNumber =>
    have equal : record = root := sound.consistent record member root rootMember sameNumber
    rw [equal] at resolved
    rw [expandedRoot_of_isFullyResolved resolved, equal]
  · rfl

theorem Sound.refreshedBy_of_mem (sound : sequence.Sound) {root record : ModuleRecord}
    (rootMember : root ∈ sequence.records) (world : World)
    (member : record ∈ sequence.current.cache.records) :
    (Crawl.expandedRoot world root).refreshedBy record = record := by
  rcases List.mem_map.mp member with ⟨entry, entryMember, rfl⟩
  exact sound.refreshedBy_of_isFullyResolved rootMember world
    (mem_records.mpr (.inr (.inr member)))
    (sound.integrity.clean.resolved entry.1 entry.2 entryMember)

theorem Sound.cache_refreshedBy (sound : sequence.Sound) {root : ModuleRecord}
    (rootMember : root ∈ sequence.records) (world : World) :
    sequence.current.cache.refreshedBy (Crawl.expandedRoot world root) =
      sequence.current.cache := by
  have same : ∀ entry ∈ sequence.current.cache.entries,
      (entry.1, (Crawl.expandedRoot world root).refreshedBy entry.2) = entry := by
    intro entry member
    rw [sound.refreshedBy_of_mem rootMember world (List.mem_map_of_mem member)]
  rw [ModuleCache.refreshedBy, List.map_congr_left same, List.map_id']

theorem Sound.start_eq (sound : sequence.Sound) (world : World) {root : ModuleRecord}
    (rootMember : root ∈ sequence.records) :
    sequence.start world root =
      ⟨(sequence.held ++ sequence.current.result.records).map
          (Crawl.expandedRoot world root).refreshedBy,
        Crawl.start world sequence.current.cache root⟩ := by
  rw [CrawlSequence.start, sound.cache_refreshedBy rootMember world]

theorem mem_start_cache {world : World} {cache : ModuleCache} {root record : ModuleRecord}
    (member : record ∈ (Crawl.start world cache root).cache.records) :
    record ∈ cache.records ∨ record = Crawl.expandedRoot world root := by
  cases outcome : (Expansion.ofModule world root.module []).outcome with
  | error fault =>
      rw [Crawl.start_of_error outcome] at member
      exact .inl member
  | ok found =>
      rw [Crawl.start_of_ok outcome] at member
      rcases ModuleCache.entries_insertIfNew cache (Crawl.expandedRoot world root) with
        same | ⟨_, inserted⟩
      · rw [ModuleCache.records, same] at member
        exact .inl member
      · rw [ModuleCache.records, inserted, List.map_append] at member
        rcases List.mem_append.mp member with old | new
        · exact .inl old
        · exact .inr (List.mem_singleton.mp new)

theorem start_cache_next (world : World) (cache : ModuleCache) (root : ModuleRecord) :
    (Crawl.start world cache root).cache.next = cache.next := by
  rw [Crawl.start]
  split
  · rfl
  · exact ModuleCache.insertIfNew_next cache _

theorem Sound.start (sound : sequence.Sound) (world : World) {root : ModuleRecord}
    (rootMember : root ∈ sequence.records) : (sequence.start world root).Sound := by
  rw [sound.start_eq world rootMember]
  have rootAfter : Crawl.expandedRoot world root =
      (Crawl.expandedRoot world root).refreshedBy root := (if_pos rfl).symm
  -- What is held now is what was held before, as it is since the root has changed.
  have known : ∀ record,
      record ∈ (sequence.held ++ sequence.current.result.records).map
          (Crawl.expandedRoot world root).refreshedBy ∨
        record ∈ (Crawl.start world sequence.current.cache root).result.records ∨
        record ∈ (Crawl.start world sequence.current.cache root).cache.records →
      ∃ before ∈ sequence.records,
        record = (Crawl.expandedRoot world root).refreshedBy before := by
    rintro record (held | reached | cached)
    · rcases List.mem_map.mp held with ⟨before, member, rfl⟩
      exact ⟨before, List.mem_append_left _ member, rfl⟩
    · rw [Crawl.start_result] at reached
      rw [List.mem_singleton.mp reached]
      exact ⟨root, rootMember, rootAfter⟩
    · rcases mem_start_cache cached with old | rfl
      · exact ⟨record, mem_records.mpr (.inr (.inr old)),
          (sound.refreshedBy_of_mem rootMember world old).symm⟩
      · exact ⟨root, rootMember, rootAfter⟩
  refine
    { integrity := Crawl.integrity_start sound.integrity.clean world root
      consistent := ?_
      numbered := ?_
      read := ?_ }
  · intro record member other otherMember same
    rcases known record (mem_records.mp member) with ⟨before, beforeMember, rfl⟩
    rcases known other (mem_records.mp otherMember) with ⟨otherBefore, otherBeforeMember, rfl⟩
    rw [refreshedBy_number, refreshedBy_number] at same
    rw [sound.consistent before beforeMember otherBefore otherBeforeMember same]
  · intro record member
    rcases known record (mem_records.mp member) with ⟨before, beforeMember, rfl⟩
    rw [refreshedBy_number, start_cache_next]
    exact sound.numbered before beforeMember
  · intro record member
    rcases known record (mem_records.mp member) with ⟨before, beforeMember, rfl⟩
    rw [ModuleRecord.refreshedBy]
    split
    · exact Module.isRead_of_unbound_eq (Expansion.expanded_unbound world root.module [])
        (sound.read root rootMember)
    · exact sound.read before beforeMember

theorem Sound.next (sound : sequence.Sound) (next : Next sequence later) : later.Sound := by
  cases next with
  | receive module read => exact sound.receive read
  | start world root member => exact sound.start world member
  | advance configuration world calm => exact sound.advance calm

theorem Sound.leads (sound : sequence.Sound) (leads : Leads sequence later) : later.Sound := by
  induction leads with
  | refl => exact sound
  | tail _ next induction => exact induction.next next

theorem Reachable.sound (reachable : sequence.Reachable) : sequence.Sound :=
  sound_initial.leads reachable

/-! ## What is cached -/

/-- A cached record stays where it is, whatever happens next. -/
theorem Sound.get?_next (sound : sequence.Sound) (next : Next sequence later) {uri : String}
    {record : ModuleRecord} (found : sequence.current.cache.get? uri = some record) :
    later.current.cache.get? uri = some record := by
  cases next with
  | receive module read => exact found
  | start world root member =>
      rw [sound.start_eq world member]
      cases outcome : (Expansion.ofModule world root.module []).outcome with
      | error fault =>
          rw [Crawl.start_of_error outcome]
          exact found
      | ok pendings =>
          rw [Crawl.start_of_ok outcome]
          exact ModuleCache.get?_insertIfNew_of_get? found
  | advance configuration world calm =>
      exact Crawl.Moves.get?_cache (sound.integrity.moves calm) found

theorem Sound.get?_leads (sound : sequence.Sound) (leads : Leads sequence later) {uri : String}
    {record : ModuleRecord} (found : sequence.current.cache.get? uri = some record) :
    later.current.cache.get? uri = some record := by
  induction leads with
  | refl => exact found
  | tail earlier next induction => exact (sound.leads earlier).get?_next next induction

end CrawlSequence

namespace Crawl

/-- Goes on with a crawl, in a world of its own at every step. -/
def runThrough : List (Configuration × World) → Crawl → Crawl
  | [], crawl => crawl
  | answers :: rest, crawl => runThrough rest (crawl.step answers.1 answers.2)

theorem runThrough_of_failure {crawl : Crawl} {fault : Fault}
    (failed : crawl.failure = some fault) (answers : List (Configuration × World)) :
    crawl.runThrough answers = crawl := by
  induction answers with
  | nil => rfl
  | cons first rest induction =>
      rw [runThrough, step_of_outcome? (outcome?_of_failure failed)]
      exact induction

theorem step_of_breaks {configuration : Configuration} {world : World} {crawl : Crawl}
    {pending : Pending} {rest : List Pending} {history : History} {fault : Fault}
    (calm : world.IsUndisturbed) (running : crawl.failure = none)
    (queue : crawl.queue = pending :: rest) (new : crawl.result.contains pending.uri = false)
    (miss : crawl.cache.get? pending.uri = none)
    (breaks : Breaks configuration world crawl.history pending history fault) :
    crawl.step configuration world =
      fail { crawl with queue := rest, history := history } fault := by
  rw [step_of_queue_eq_cons running queue]
  exact @visit_of_breaks configuration world { crawl with queue := rest } pending history fault
    calm new miss breaks

end Crawl

namespace CrawlSequence

variable {sequence : CrawlSequence}

/-- The cache is never poisoned. It is clean; a cached record stays cached, and is the same wherever
it is held; and a module that breaks the crawl that has come to it is not put there by that crawl,
whatever the world answers from then on. -/
theorem Reachable.never_poisoned (reachable : sequence.Reachable) :
    sequence.current.cache.IsClean ∧
      (∀ later, Leads sequence later → ∀ uri record,
        sequence.current.cache.get? uri = some record →
        later.current.cache.get? uri = some record ∧
          ∀ other ∈ later.records, other.number = record.number → other = record) ∧
      ∀ configuration world pending rest history fault, world.IsUndisturbed →
        sequence.current.failure = none → sequence.current.queue = pending :: rest →
        sequence.current.result.contains pending.uri = false →
        sequence.current.cache.get? pending.uri = none →
        Crawl.Breaks configuration world sequence.current.history pending history fault →
        ∀ answers,
          ((sequence.current.step configuration world).runThrough answers).failure = some fault ∧
          ((sequence.current.step configuration world).runThrough answers).cache =
            sequence.current.cache := by
  have sound := reachable.sound
  refine ⟨sound.integrity.clean, ?_, ?_⟩
  · intro later leads uri record found
    have kept := sound.get?_leads leads found
    have laterSound := sound.leads leads
    refine ⟨kept, fun other member same => ?_⟩
    apply laterSound.consistent other member record _ same
    exact mem_records.mpr (.inr (.inr (List.mem_map.mpr
      ⟨_, ModuleCache.mem_entries_of_get? kept, rfl⟩)))
  · intro configuration world pending rest history fault calm running queue new miss breaks answers
    rw [Crawl.step_of_breaks calm running queue new miss breaks, Crawl.runThrough_of_failure rfl]
    exact ⟨rfl, rfl⟩

/-! A root that is cached, and a module behind it that cannot be read. -/

def breakingSurroundings : Surroundings := .ofTexts [("b", "type")]

def breakingRoot : Module := (Module.ofText false "a" "from b import B").toOption.getD default

def breaking : CrawlSequence :=
  (initial.receive breakingRoot).start breakingSurroundings.world ⟨breakingRoot, 0⟩

theorem breaking_reachable : breaking.Reachable := by
  have read : Module.ofText false "a" "from b import B" = .ok breakingRoot := by cbv
  exact .tail (.tail .refl (.receive breakingRoot (Module.isRead_of_ofText_eq_ok read)))
    (.start breakingSurroundings.world _ (List.mem_cons_self ..))

theorem never_poisoned_breaking :
    breaking.Reachable ∧
      (∃ record, breaking.current.cache.get? "a" = some record ∧
        ∀ later, Leads breaking later → later.current.cache.get? "a" = some record) ∧
      ∀ answers, ((breaking.current.step default breakingSurroundings.world).runThrough
        answers).cache = breaking.current.cache := by
  rcases breaking_reachable.never_poisoned with ⟨_, kept, broken⟩
  refine ⟨breaking_reachable, ?_, ?_⟩
  · have found : breaking.current.cache.get? "a" =
        some (breaking.current.result.records.headD default) := by cbv
    exact ⟨_, found, fun later leads => (kept later leads "a" _ found).1⟩
  · intro answers
    have queue : breaking.current.queue = [breaking.current.queue.headD default] := by cbv
    have held : (breaking.current.queue.headD default).source =
        some ⟨"b", .held (Utf8.encode "type".toList)⟩ := by cbv
    have unread : ∃ fault, breakingSurroundings.world.load default
        (Crawl.loading breaking.current.history ⟨"b", .held (Utf8.encode "type".toList)⟩)
        ⟨"b", .held (Utf8.encode "type".toList)⟩ = .error fault := ⟨_, by cbv⟩
    rcases unread with ⟨fault, failed⟩
    exact (broken default breakingSurroundings.world _ [] _ fault rfl (by cbv) queue (by cbv)
      (by cbv) (.unreadable (.held held) failed) answers).2

end CrawlSequence

end ServiceModules
