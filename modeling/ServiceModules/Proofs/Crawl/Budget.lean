import ServiceModules.Proofs.Crawl.Loading

/-!
How many steps a crawl takes. A budget tells, by its identifier, how many import requests a module
can have. A crawl takes every module into its result once, so that no more pending modules come into
its queue than the root has requests and the budget allows in all: with as many steps it is over.
-/

namespace ServiceModules

abbrev Budget := List (String × Nat)

namespace Budget

variable {budget : Budget} {uri : String} {count : Nat} {reached : List String}

def Allows (budget : Budget) (uri : String) (count : Nat) : Prop :=
  ∃ allowed, (uri, allowed) ∈ budget ∧ count ≤ allowed

def total (budget : Budget) : Nat := (budget.map Prod.snd).sum

/-- What is allowed to the modules that are not reached yet. -/
def left (budget : Budget) (reached : List String) : Nat :=
  total (budget.filter fun entry => entry.1 ∉ reached)

theorem Allows.mono {fewer : Nat} (allows : budget.Allows uri count) (le : fewer ≤ count) :
    budget.Allows uri fewer := by
  rcases allows with ⟨allowed, member, enough⟩
  exact ⟨allowed, member, le.trans enough⟩

theorem left_cons (entry : String × Nat) (rest : Budget) :
    left (entry :: rest) reached =
      (if entry.1 ∈ reached then 0 else entry.2) + rest.left reached := by
  rw [left, left, List.filter_cons]
  by_cases known : entry.1 ∈ reached
  · simp [known]
  · simp [known, total]

theorem left_nil_eq_total (budget : Budget) : budget.left [] = budget.total := by
  simp [left]

theorem left_append_le (budget : Budget) (reached more : List String) :
    budget.left (reached ++ more) ≤ budget.left reached := by
  induction budget with
  | nil => exact Nat.le_refl _
  | cons entry rest induction =>
      rw [left_cons, left_cons]
      by_cases known : entry.1 ∈ reached
      · simpa [known] using induction
      · rw [if_neg known]
        split <;> omega

theorem left_append_add_le (allows : budget.Allows uri count) (new : uri ∉ reached) :
    budget.left (reached ++ [uri]) + count ≤ budget.left reached := by
  rcases allows with ⟨allowed, member, enough⟩
  induction budget with
  | nil => cases member
  | cons entry rest induction =>
      rw [left_cons, left_cons]
      rcases List.mem_cons.mp member with rfl | later
      · have others := left_append_le rest reached [uri]
        rw [if_pos (List.mem_append_right _ (List.mem_singleton_self _)), if_neg new]
        omega
      · have behind := induction later
        by_cases known : entry.1 ∈ reached
        · rw [if_pos (List.mem_append_left _ known), if_pos known]
          omega
        · rw [if_neg known]
          split <;> omega

end Budget

/-- Whatever is loaded from the source has no more requests than the budget allows. -/
def World.Affords (world : World) (configuration : Configuration) (budget : Budget)
    (source : ModuleSource) : Prop :=
  ∀ history module, world.load configuration history source = .ok module →
    budget.Allows source.uri module.table.imports.length

theorem ModuleCache.get?_cases_of_append {cache after : ModuleCache} {uri : String}
    {entry : String × ModuleRecord} {other : ModuleRecord}
    (entries : after.entries = cache.entries ++ [entry]) (found : after.get? uri = some other) :
    cache.get? uri = some other ∨ uri = entry.1 := by
  rw [get?, entries, List.lookup_append] at found
  cases before : cache.entries.lookup uri with
  | some first =>
      rw [before, Option.some_or] at found
      exact .inl (before.trans found)
  | none =>
      rw [before, Option.none_or] at found
      by_cases same : uri = entry.1
      · exact .inr same
      · simp [List.lookup, beq_false_of_ne same] at found

namespace Expansion

variable {world : World} {module : Module} {history : History}
variable {before after : List ImportRequest} {found : List Pending}

theorem Succeeds.length_eq (succeeds : Succeeds world module history before after found) :
    found.length = before.length := by
  induction succeeds with
  | none => rfl
  | bound _ _ induction | located _ _ _ induction =>
      rw [List.length_cons, List.length_cons, induction]

theorem Succeeds.exists_located (succeeds : Succeeds world module history before after found) :
    ∀ pending ∈ found, ∀ source, pending.source = some source →
      ∃ asked request, world.source asked module request = .ok source := by
  induction succeeds with
  | none =>
      intro pending member
      cases member
  | bound _ _ induction =>
      intro pending member source held
      rcases List.mem_cons.mp member with rfl | later
      · cases held
      · exact induction pending later source held
  | located _ located _ induction =>
      intro pending member source held
      rcases List.mem_cons.mp member with rfl | later
      · cases held
        exact ⟨_, _, located⟩
      · exact induction pending later source held

end Expansion

namespace Crawl

def remaining (budget : Budget) (crawl : Crawl) : Nat :=
  crawl.queue.length + budget.left crawl.result.uris

/-- What the crawl may still take into its result is allowed by the budget. -/
structure IsWithin (configuration : Configuration) (world : World) (budget : Budget)
    (crawl : Crawl) : Prop where
  cached : ∀ uri record, crawl.cache.get? uri = some record → uri ∉ crawl.result.uris →
    budget.Allows uri record.module.table.imports.length
  queued : ∀ pending ∈ crawl.queue, ∀ source, pending.source = some source →
    world.Affords configuration budget source

variable {configuration : Configuration} {world : World} {budget : Budget} {crawl : Crawl}
variable {record : ModuleRecord} {found : List Pending}

theorem not_mem_uris (new : crawl.result.contains record.uri = false) :
    record.uri ∉ crawl.result.uris := by
  intro member
  rw [CrawlResult.contains_iff.mpr member] at new
  cases new

theorem remaining_accept (new : crawl.result.contains record.uri = false)
    (allows : budget.Allows record.uri found.length) :
    (crawl.accept record found).remaining budget ≤ crawl.remaining budget := by
  have less := Budget.left_append_add_le allows (not_mem_uris new)
  rw [remaining, remaining, accept, CrawlResult.uris_insert new, List.length_append]
  omega

theorem IsWithin.accept (within : crawl.IsWithin configuration world budget)
    {after : ModuleCache} {history : History} (new : crawl.result.contains record.uri = false)
    (only : ∀ uri other, after.get? uri = some other →
      crawl.cache.get? uri = some other ∨ uri = record.uri)
    (affordable : ∀ pending ∈ found, ∀ source, pending.source = some source →
      world.Affords configuration budget source) :
    (Crawl.accept { crawl with cache := after, history := history } record found).IsWithin
      configuration world budget where
  cached := by
    intro uri other held unreached
    have uris : (crawl.result.insert record).uris = crawl.result.uris ++ [record.uri] :=
      CrawlResult.uris_insert new
    have unreached : uri ∉ (crawl.result.insert record).uris := unreached
    rw [uris, List.mem_append, List.mem_singleton, not_or] at unreached
    rcases only uri other held with before | rfl
    · exact within.cached uri other before unreached.1
    · exact absurd rfl unreached.2
  queued := by
    intro pending member
    rcases List.mem_append.mp member with waiting | new
    · exact within.queued pending waiting
    · exact affordable pending new

section

variable (calm : world.IsUndisturbed)
variable (affords : ∀ history importer request source,
  world.source history importer request = .ok source → world.Affords configuration budget source)
include calm affords

/-- After a visit the crawl is over, or no more pending modules may follow than before. -/
theorem IsWithin.visit (within : crawl.IsWithin configuration world budget)
    (named : crawl.cache.IsNamed) {pending : Pending} (own : pending.HasOwnSource)
    (held : ∀ source, pending.source = some source → world.Affords configuration budget source) :
    (∃ outcome, (crawl.visit configuration world pending).outcome? = some outcome) ∨
      (crawl.visit configuration world pending).IsWithin configuration world budget ∧
        (crawl.visit configuration world pending).remaining budget ≤ crawl.remaining budget := by
  have visits := @visits_visit configuration world crawl pending calm own
  generalize crawl.visit configuration world pending = later at visits ⊢
  cases visits with
  | known => exact .inr ⟨within, Nat.le_refl _⟩
  | broken => exact .inl ⟨_, rfl⟩
  | @cached record new hit =>
      have same : record.uri = pending.uri := named pending.uri record hit
      rw [← same] at new hit
      have allows := within.cached record.uri record hit (not_mem_uris new)
      refine .inr ⟨?_, remaining_accept new (allows.mono (List.length_filterMap_le ..))⟩
      refine within.accept new (fun _ _ held => .inl held) fun next member source held => ?_
      rw [(Module.mem_pending member).2.2.2] at held
      cases held
  | @taken history source module found new miss sources loaded succeeded =>
      have succeeds := Expansion.succeeds_of_ofModule_eq_ok succeeded
      have sourceUri : module.uri = source.uri := World.uri_of_load_eq_ok loaded
      have same : module.uri = pending.uri := sourceUri.trans (sources.uri_eq own)
      rw [← same] at new miss
      -- The bytes that the module was read from bound the number of its requests.
      have affordable : world.Affords configuration budget source := by
        cases sources with
        | held isHeld => exact held source isHeld
        | located _ located _ => exact affords _ _ _ _ located
      have allows := affordable _ module loaded
      rw [← succeeds.length_eq, ← sourceUri] at allows
      refine .inr ⟨within.accept new ?_ ?_, remaining_accept new allows⟩
      · intro uri other isCached
        exact ModuleCache.get?_cases_of_append rfl isCached
      · intro next member source isHeld
        rcases succeeds.exists_located next member source isHeld with ⟨_, _, located⟩
        exact affords _ _ _ _ located

theorem exists_outcome?_of_remaining {cache : ModuleCache} {root : String}
    (within : crawl.IsWithin configuration world budget) (once : LoadsOnce cache root crawl)
    {count : Nat} (enough : crawl.remaining budget ≤ count) :
    ∃ outcome, (crawl.run configuration world count).outcome? = some outcome := by
  induction count generalizing crawl with
  | zero =>
      rcases outcome?_cases crawl with finished | ⟨_, pending, rest, queue⟩
      · exact finished
      · simp only [remaining, queue, List.length_cons] at enough
        omega
  | succ count induction =>
      rcases outcome?_cases crawl with ⟨outcome, finished⟩ | ⟨running, pending, rest, queue⟩
      · exact ⟨outcome, by rw [run_of_outcome? finished, finished]⟩
      · have popped : ({ crawl with queue := rest } : Crawl).IsWithin configuration world budget :=
          { cached := within.cached
            queued := fun next member =>
              within.queued next (queue ▸ List.mem_cons_of_mem _ member) }
        have isPending : pending ∈ crawl.queue := queue ▸ List.mem_cons_self ..
        have visited := popped.visit calm affords once.named
          ((once.retains running).sourced pending isPending) (within.queued pending isPending)
        rw [← step_of_queue_eq_cons running queue] at visited
        rw [run]
        rcases visited with ⟨outcome, finished⟩ | ⟨withinLater, less⟩
        · exact ⟨outcome, by rw [run_of_outcome? finished, finished]⟩
        · refine induction withinLater (once.step calm.onlyAdds configuration) ?_
          simp only [remaining, queue, List.length_cons] at enough less ⊢
          omega

/-- A crawl over a cache within the budget ends after as many steps as the root has requests and the
budget allows in all. -/
theorem exists_outcome?_of_budget {cache : ModuleCache} (named : cache.IsNamed)
    (cached : ∀ uri record, cache.get? uri = some record →
      budget.Allows uri record.module.table.imports.length) (root : ModuleRecord) {count : Nat}
    (enough : root.module.table.imports.length + budget.total ≤ count) :
    ∃ outcome,
      ((start world cache root).run configuration world count).outcome? = some outcome := by
  have once := loadsOnce_start named world root
  cases outcome : (Expansion.ofModule world root.module []).outcome with
  | error fault =>
      have finished : (start world cache root).outcome? = some (.error fault) := by
        rw [start_of_error outcome]
        rfl
      exact ⟨_, by rw [run_of_outcome? finished, finished]⟩
  | ok found =>
      have succeeds := Expansion.succeeds_of_ofModule_eq_ok outcome
      -- The root may be cached by now, and it is reached already.
      have root_new : ∀ uri record, (cache.insertIfNew (expandedRoot world root)).2.get? uri =
          some record → cache.get? uri = some record ∨ uri = root.uri := by
        intro uri record held
        rcases ModuleCache.entries_insertIfNew cache (expandedRoot world root) with
          entries | ⟨_, entries⟩
        · rw [ModuleCache.get?, entries] at held
          exact .inl held
        · exact ModuleCache.get?_cases_of_append entries held
      rw [start_of_ok outcome] at once ⊢
      refine exists_outcome?_of_remaining calm affords ⟨?_, ?_⟩ once ?_
      · intro uri record held unreached
        rcases root_new uri record held with before | rfl
        · exact cached uri record before
        · exact absurd (List.mem_singleton_self _) unreached
      · intro pending member source isHeld
        rcases succeeds.exists_located pending member source isHeld with ⟨_, _, located⟩
        exact affords _ _ _ _ located
      · have less := Budget.left_append_le budget [] [root.uri]
        rw [Budget.left_nil_eq_total] at less
        refine Nat.le_trans ?_ enough
        exact Nat.add_le_add succeeds.length_eq.le less

end

end Crawl

end ServiceModules
