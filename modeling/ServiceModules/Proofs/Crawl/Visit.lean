import ServiceModules.Crawl.Basic
import ServiceModules.Proofs.Crawl.Expansion
import ServiceModules.Proofs.Crawl.Records

/-!
What a visit of a pending module can come to when nobody else writes into the cache: the module is
known, it is cached, it breaks the crawl, or it is taken into the result and into the cache. Every
invariant of a crawl is proved case by case from this list.
-/

namespace ServiceModules

namespace World

def IsUndisturbed (world : World) : Prop := world.meanwhile = undisturbed

theorem uri_of_load_eq_ok {world : World} {configuration : Configuration} {history : History}
    {source : ModuleSource} {module : Module}
    (loaded : world.load configuration history source = .ok module) :
    module.uri = source.uri := by
  rw [load] at loaded
  split at loaded
  · cases loaded
  · exact Module.uri_of_ofBytes_eq_ok loaded

end World

namespace Crawl

/-! ## Steps -/

section

variable {configuration : Configuration} {world : World} {crawl : Crawl}

theorem outcome?_of_failure {fault : Fault} (failed : crawl.failure = some fault) :
    crawl.outcome? = some (.error fault) := by
  rw [outcome?, failed]

theorem outcome?_of_queue_eq_nil (running : crawl.failure = none) (nothing : crawl.queue = []) :
    crawl.outcome? = some (.ok crawl.result) := by
  rw [outcome?, running, nothing]

theorem outcome?_cases (crawl : Crawl) :
    (∃ outcome, crawl.outcome? = some outcome) ∨
      crawl.failure = none ∧ ∃ pending rest, crawl.queue = pending :: rest := by
  cases failure : crawl.failure with
  | some fault => exact .inl ⟨_, outcome?_of_failure failure⟩
  | none =>
      cases queue : crawl.queue with
      | nil => exact .inl ⟨_, outcome?_of_queue_eq_nil failure queue⟩
      | cons pending rest => exact .inr ⟨rfl, pending, rest, rfl⟩

theorem step_of_queue_eq_cons {pending : Pending} {rest : List Pending}
    (running : crawl.failure = none) (queue : crawl.queue = pending :: rest) :
    crawl.step configuration world =
      visit configuration world { crawl with queue := rest } pending := by
  rw [step, running, queue]

theorem step_of_outcome? {outcome : Except Fault CrawlResult}
    (finished : crawl.outcome? = some outcome) : crawl.step configuration world = crawl := by
  rw [step]
  split
  · next running queue =>
    rw [outcome?, running, queue] at finished
    cases finished
  · rfl

theorem run_of_outcome? {outcome : Except Fault CrawlResult}
    (finished : crawl.outcome? = some outcome) (count : Nat) :
    crawl.run configuration world count = crawl := by
  induction count with
  | zero => rfl
  | succ count induction => rw [run, step_of_outcome? finished, induction]

end

/-! ## What a visit comes to -/

/-- How a crawl comes by the source of a pending module: the source is at hand, or the module is
located once more. -/
inductive Sources (world : World) (before : History) (pending : Pending) :
    History → ModuleSource → Prop
  | held {source : ModuleSource} (held : pending.source = some source) :
      Sources world before pending before source
  | located {source : ModuleSource} (unheld : pending.source = none)
      (located : world.source before pending.importer pending.request = .ok source)
      (same : source.uri = pending.uri) :
      Sources world before pending
        (before ++ [.lookup pending.importer.uri pending.request.path]) source

theorem Sources.uri_eq {world : World} {before history : History} {pending : Pending}
    {source : ModuleSource} (sources : Sources world before pending history source)
    (own : pending.HasOwnSource) : source.uri = pending.uri := by
  cases sources with
  | held held => exact own source held
  | located _ _ same => exact same

/-- Why a pending module whose source is not at hand cannot be located once more. -/
inductive Loses (world : World) (before : History) (pending : Pending) : Fault → Prop
  | unlocated {fault : Fault}
      (failed : world.source before pending.importer pending.request = .error fault) :
      Loses world before pending fault
  | moved {source : ModuleSource}
      (located : world.source before pending.importer pending.request = .ok source)
      (different : source.uri ≠ pending.uri) :
      Loses world before pending (.moved pending.request.path pending.importer.uri source.uri
        pending.uri pending.request.location)

def loading (history : History) (source : ModuleSource) : History :=
  history ++ [.load source.uri]

def recordOf (world : World) (crawl : Crawl) (history : History) (module : Module) :
    ModuleRecord :=
  ⟨(Expansion.ofModule world module history).expanded module, crawl.cache.next⟩

/-- Why a pending module cannot be taken, with the history of the crawl that finds it out: it is
lost, its source cannot be read as a module, or one of its imports leads nowhere. -/
inductive Breaks (configuration : Configuration) (world : World) (before : History)
    (pending : Pending) : History → Fault → Prop
  | lost {fault : Fault} (unheld : pending.source = none)
      (loses : Loses world before pending fault) :
      Breaks configuration world before pending
        (before ++ [.lookup pending.importer.uri pending.request.path]) fault
  | unreadable {history : History} {source : ModuleSource} {fault : Fault}
      (sources : Sources world before pending history source)
      (failed : world.load configuration (loading history source) source = .error fault) :
      Breaks configuration world before pending (loading history source) fault
  | unlocated {history : History} {source : ModuleSource} {module : Module} {fault : Fault}
      (sources : Sources world before pending history source)
      (loaded : world.load configuration (loading history source) source = .ok module)
      (failed : (Expansion.ofModule world module (loading history source)).outcome
        = .error fault) :
      Breaks configuration world before pending
        (Expansion.ofModule world module (loading history source)).history fault

inductive Visits (configuration : Configuration) (world : World) (crawl : Crawl)
    (pending : Pending) : Crawl → Prop
  | known (contained : crawl.result.contains pending.uri = true) :
      Visits configuration world crawl pending crawl
  | cached {record : ModuleRecord} (new : crawl.result.contains pending.uri = false)
      (hit : crawl.cache.get? pending.uri = some record) :
      Visits configuration world crawl pending (crawl.accept record record.module.pending)
  | broken {history : History} {fault : Fault} (new : crawl.result.contains pending.uri = false)
      (miss : crawl.cache.get? pending.uri = none)
      (breaks : Breaks configuration world crawl.history pending history fault) :
      Visits configuration world crawl pending (fail { crawl with history := history } fault)
  | taken {history : History} {source : ModuleSource} {module : Module} {found : List Pending}
      (new : crawl.result.contains pending.uri = false)
      (miss : crawl.cache.get? pending.uri = none)
      (sources : Sources world crawl.history pending history source)
      (loaded : world.load configuration (loading history source) source = .ok module)
      (succeeded : (Expansion.ofModule world module (loading history source)).outcome
        = .ok found) :
      Visits configuration world crawl pending
        (accept
          { crawl with
            history := (Expansion.ofModule world module (loading history source)).history
            cache :=
              { entries := crawl.cache.entries ++
                  [(module.uri, recordOf world crawl (loading history source) module)]
                next := crawl.cache.next + 1 } }
          (recordOf world crawl (loading history source) module) found)

variable {configuration : Configuration} {world : World} {crawl : Crawl} {pending : Pending}

/-! Loading a source, by what it comes to. -/

theorem load_of_unreadable (calm : world.IsUndisturbed) {source : ModuleSource} {fault : Fault}
    (failed : world.load configuration (loading crawl.history source) source = .error fault) :
    crawl.load configuration world source =
      fail { crawl with history := loading crawl.history source } fault := by
  rw [load, calm]
  simp only [World.undisturbed]
  rw [loading] at failed
  rw [failed]
  rfl

theorem load_of_readable (calm : world.IsUndisturbed) {source : ModuleSource} {module : Module}
    (loaded : world.load configuration (loading crawl.history source) source = .ok module) :
    crawl.load configuration world source =
      expand world { crawl with history := loading crawl.history source } module := by
  rw [load, calm]
  simp only [World.undisturbed]
  rw [loading] at loaded
  rw [loaded]
  rfl

theorem expand_of_unlocated {module : Module} {fault : Fault}
    (failed : (Expansion.ofModule world module crawl.history).outcome = .error fault) :
    crawl.expand world module =
      fail { crawl with history := (Expansion.ofModule world module crawl.history).history }
        fault := by
  rw [expand]
  simp only [failed]

theorem expand_of_located {module : Module} {found : List Pending}
    (succeeded : (Expansion.ofModule world module crawl.history).outcome = .ok found)
    (miss : crawl.cache.get? module.uri = none) :
    crawl.expand world module =
      accept
        { crawl with
          history := (Expansion.ofModule world module crawl.history).history
          cache :=
            { entries := crawl.cache.entries ++
                [(module.uri, recordOf world crawl crawl.history module)]
              next := crawl.cache.next + 1 } }
        (recordOf world crawl crawl.history module) found := by
  rw [expand]
  simp only [succeeded]
  have absent : ({ crawl.cache with next := crawl.cache.next + 1 } : ModuleCache).get?
      (recordOf world crawl crawl.history module).uri = none := miss
  rw [keep]
  simp only [ModuleCache.record]
  rw [recordOf] at absent
  rw [absent]
  simp only [ModuleCache.insertIfNew_of_missing absent]
  rfl

/-! Visiting a module that is neither known nor cached. -/

theorem visit_of_sources {history : History} {source : ModuleSource}
    (new : crawl.result.contains pending.uri = false)
    (miss : crawl.cache.get? pending.uri = none)
    (sources : Sources world crawl.history pending history source) :
    crawl.visit configuration world pending =
      load configuration world { crawl with history := history } source := by
  rw [visit, new, if_neg Bool.false_ne_true]
  simp only [miss]
  cases sources with
  | held held => simp only [held]
  | located unheld located same =>
      simp only [unheld]
      rw [relocate]
      simp only [located, if_pos same]

theorem visit_of_loses {fault : Fault} (new : crawl.result.contains pending.uri = false)
    (miss : crawl.cache.get? pending.uri = none) (unheld : pending.source = none)
    (loses : Loses world crawl.history pending fault) :
    crawl.visit configuration world pending =
      fail { crawl with history :=
        crawl.history ++ [.lookup pending.importer.uri pending.request.path] } fault := by
  rw [visit, new, if_neg Bool.false_ne_true]
  simp only [miss, unheld]
  rw [relocate]
  cases loses with
  | unlocated failed => simp only [failed]
  | moved located different => simp only [located, if_neg different]

theorem visit_of_breaks {history : History} {fault : Fault} (calm : world.IsUndisturbed)
    (new : crawl.result.contains pending.uri = false)
    (miss : crawl.cache.get? pending.uri = none)
    (breaks : Breaks configuration world crawl.history pending history fault) :
    crawl.visit configuration world pending =
      fail { crawl with history := history } fault := by
  cases breaks with
  | lost unheld loses => exact visit_of_loses new miss unheld loses
  | @unreadable history source _ sources failed =>
      rw [visit_of_sources new miss sources]
      exact @load_of_unreadable configuration world { crawl with history := history } calm source
        fault failed
  | @unlocated history source module _ sources loaded failed =>
      rw [visit_of_sources new miss sources]
      have readable := @load_of_readable configuration world { crawl with history := history } calm
        source module loaded
      rw [readable]
      exact expand_of_unlocated failed

theorem exists_sources_or_loses (world : World) (before : History) (pending : Pending) :
    (∃ history source, Sources world before pending history source) ∨
      pending.source = none ∧ ∃ fault, Loses world before pending fault := by
  cases held : pending.source with
  | some source => exact .inl ⟨before, source, .held held⟩
  | none =>
      cases located : world.source before pending.importer pending.request with
      | error fault => exact .inr ⟨rfl, fault, .unlocated located⟩
      | ok source =>
          by_cases same : source.uri = pending.uri
          · exact .inl ⟨_, source, .located held located same⟩
          · exact .inr ⟨rfl, _, .moved located same⟩

/-- Every visit comes to one of the listed ends. -/
theorem visits_visit (calm : world.IsUndisturbed) (own : pending.HasOwnSource) :
    Visits configuration world crawl pending (crawl.visit configuration world pending) := by
  cases contained : crawl.result.contains pending.uri with
  | true =>
      rw [visit, if_pos contained]
      exact .known contained
  | false =>
      cases hit : crawl.cache.get? pending.uri with
      | some record =>
          rw [visit, contained, if_neg Bool.false_ne_true, hit]
          exact .cached contained hit
      | none =>
          have broken : ∀ {history fault},
              Breaks configuration world crawl.history pending history fault →
              Visits configuration world crawl pending
                (crawl.visit configuration world pending) := by
            intro history fault breaks
            rw [visit_of_breaks calm contained hit breaks]
            exact .broken contained hit breaks
          rcases exists_sources_or_loses world crawl.history pending with
            ⟨history, source, sources⟩ | ⟨unheld, fault, loses⟩
          · cases loaded : world.load configuration (loading history source) source with
            | error fault => exact broken (.unreadable sources loaded)
            | ok module =>
                cases outcome :
                    (Expansion.ofModule world module (loading history source)).outcome with
                | error fault => exact broken (.unlocated sources loaded outcome)
                | ok found =>
                    have sameUri : module.uri = pending.uri :=
                      (World.uri_of_load_eq_ok loaded).trans (sources.uri_eq own)
                    have readable := @load_of_readable configuration world
                      { crawl with history := history } calm source module loaded
                    rw [visit_of_sources contained hit sources, readable,
                      expand_of_located outcome (by rw [sameUri]; exact hit)]
                    exact .taken contained hit sources loaded outcome
          · exact broken (.lost unheld loses)

end Crawl

end ServiceModules
