import ServiceModules.Proofs.Crawl.Advice

/-!
Enlarging a world. In the larger of two worlds every import that leads somewhere leads to the same
place as in the smaller one, and everything else is the same; an import that leads nowhere in the
smaller one may lead anywhere in the larger one.

A crawl in the smaller world asks about one import after the other, and ends at the first one that
leads nowhere. So a crawl in the larger world is the same crawl, up to that import.
-/

namespace ServiceModules

def Fault.IsUnlocated (fault : Fault) : Prop := ∃ report, fault = .unlocated report

namespace World

/-- What is located in the smaller world is located in the larger one, and at the same place. -/
structure EnlargedTo (smaller larger : World) : Prop where
  locate : ∀ history requester path,
    (∃ missing, smaller.locate history requester path = .ok (.missing missing))
      ∨ larger.locate history requester path = smaller.locate history requester path
  read : larger.read = smaller.read
  meanwhile : larger.meanwhile = smaller.meanwhile

variable {smaller larger : World}

theorem EnlargedTo.source (enlarged : smaller.EnlargedTo larger) (history : History)
    (importer : Module) (request : ImportRequest) :
    (∃ fault, smaller.source history importer request = .error fault ∧ fault.IsUnlocated)
      ∨ larger.source history importer request = smaller.source history importer request := by
  rcases enlarged.locate history importer.uri request.path with ⟨missing, isMissing⟩ | same
  · left
    exact ⟨smaller.unlocated importer request missing, by rw [World.source, isMissing], _, rfl⟩
  · rw [World.source, World.source, same]
    -- The candidates of the two worlds matter only where an import leads nowhere.
    rcases smaller.locate history importer.uri request.path with fault | source | missing
    · exact .inr rfl
    · exact .inr rfl
    · exact .inl ⟨_, rfl, _, rfl⟩

theorem EnlargedTo.load (enlarged : smaller.EnlargedTo larger) (configuration : Configuration)
    (history : History) (source : ModuleSource) :
    larger.load configuration history source = smaller.load configuration history source := by
  rw [World.load, World.load, enlarged.read]

end World

variable {smaller larger : World}

theorem Expansion.ofRequests_enlarged (enlarged : smaller.EnlargedTo larger) (module : Module)
    (requests : List ImportRequest) (history : History) :
    (∃ fault, (ofRequests smaller module history requests).outcome = .error fault
        ∧ fault.IsUnlocated)
      ∨ ofRequests larger module history requests
          = ofRequests smaller module history requests := by
  induction requests generalizing history with
  | nil => exact .inr rfl
  | cons request rest induction =>
    unfold ofRequests
    cases request.target with
    | some target =>
      rcases induction history with ⟨fault, failed, unlocated⟩ | same
      · exact .inl ⟨fault, by simp only [prepend, failed, Except.map], unlocated⟩
      · exact .inr (by simp only [same])
    | none =>
      rcases enlarged.source history module request with ⟨fault, failed, unlocated⟩ | same
      · exact .inl ⟨fault, by simp only [failed], unlocated⟩
      · rw [same]
        cases smaller.source history module request with
        | error fault => exact .inr rfl
        | ok source =>
          rcases induction (history ++ [.lookup module.uri request.path])
            with ⟨fault, failed, unlocated⟩ | same
          · exact .inl ⟨fault, by simp only [prepend, failed, Except.map], unlocated⟩
          · exact .inr (by simp only [same])

theorem Expansion.ofModule_enlarged (enlarged : smaller.EnlargedTo larger) (module : Module)
    (history : History) :
    (∃ fault, (ofModule smaller module history).outcome = .error fault ∧ fault.IsUnlocated)
      ∨ ofModule larger module history = ofModule smaller module history :=
  ofRequests_enlarged enlarged module module.table.imports history

namespace Crawl

def IsLost (crawl : Crawl) : Prop := ∃ fault, crawl.failure = some fault ∧ fault.IsUnlocated

theorem IsLost.outcome? {crawl : Crawl} (lost : crawl.IsLost) :
    ∃ fault, crawl.outcome? = some (.error fault) ∧ fault.IsUnlocated := by
  rcases lost with ⟨fault, failed, unlocated⟩
  exact ⟨fault, outcome?_of_failure failed, unlocated⟩

theorem IsLost.run {crawl : Crawl} (lost : crawl.IsLost) (configuration : Configuration)
    {world : World} (count : Nat) : (crawl.run configuration world count).IsLost := by
  rcases lost.outcome? with ⟨_, finished, _⟩
  rwa [run_of_outcome? finished]

variable (enlarged : smaller.EnlargedTo larger) (configuration : Configuration) (crawl : Crawl)
include enlarged

theorem expand_enlarged (module : Module) :
    (crawl.expand smaller module).IsLost
      ∨ crawl.expand larger module = crawl.expand smaller module := by
  rcases Expansion.ofModule_enlarged enlarged module crawl.history
    with ⟨fault, failed, unlocated⟩ | same
  · exact .inl ⟨fault, by simp only [expand, failed, fail], unlocated⟩
  · exact .inr (by simp only [expand, same])

theorem load_enlarged (source : ModuleSource) :
    (crawl.load configuration smaller source).IsLost
      ∨ crawl.load configuration larger source = crawl.load configuration smaller source := by
  simp only [load, enlarged.meanwhile, enlarged.load configuration]
  cases (smaller.meanwhile source.uri crawl.cache).1 with
  | some fault => exact .inr rfl
  | none =>
    cases smaller.load configuration (crawl.history ++ [.load source.uri]) source with
    | error fault => exact .inr rfl
    | ok module => exact expand_enlarged enlarged _ module

theorem relocate_enlarged (pending : Pending) :
    (crawl.relocate configuration smaller pending).IsLost
      ∨ crawl.relocate configuration larger pending
          = crawl.relocate configuration smaller pending := by
  rcases enlarged.source crawl.history pending.importer pending.request
    with ⟨fault, failed, unlocated⟩ | same
  · exact .inl ⟨fault, by simp only [relocate, failed, fail], unlocated⟩
  · simp only [relocate, same]
    cases smaller.source crawl.history pending.importer pending.request with
    | error fault => exact .inr rfl
    | ok source =>
      dsimp only
      split
      · exact load_enlarged enlarged configuration _ source
      · exact .inr rfl

theorem visit_enlarged (pending : Pending) :
    (crawl.visit configuration smaller pending).IsLost
      ∨ crawl.visit configuration larger pending = crawl.visit configuration smaller pending := by
  unfold visit
  split
  · exact .inr rfl
  · split
    · exact .inr rfl
    · split
      · exact load_enlarged enlarged configuration crawl _
      · exact relocate_enlarged enlarged configuration crawl pending

theorem step_enlarged :
    (crawl.step configuration smaller).IsLost
      ∨ crawl.step configuration larger = crawl.step configuration smaller := by
  unfold step
  split
  · exact visit_enlarged enlarged configuration _ _
  · exact .inr rfl

/-- As long as the crawl in the smaller world is not lost, it is the crawl in the larger one. -/
theorem run_enlarged (count : Nat) :
    (crawl.run configuration smaller count).IsLost
      ∨ crawl.run configuration larger count = crawl.run configuration smaller count := by
  induction count generalizing crawl with
  | zero => exact .inr rfl
  | succ count induction =>
    rw [run, run]
    rcases step_enlarged enlarged configuration crawl with lost | same
    · exact .inl (lost.run configuration count)
    · rw [same]
      exact induction _

theorem start_enlarged (cache : ModuleCache) (root : ModuleRecord) :
    (start smaller cache root).IsLost ∨ start larger cache root = start smaller cache root := by
  rcases Expansion.ofModule_enlarged enlarged root.module [] with ⟨fault, failed, unlocated⟩ | same
  · exact .inl ⟨fault, by simp only [start, failed, fail], unlocated⟩
  · exact .inr (by simp only [start, expandedRoot, same])

theorem run_start_enlarged (cache : ModuleCache) (root : ModuleRecord) (count : Nat) :
    ((start smaller cache root).run configuration smaller count).IsLost
      ∨ (start larger cache root).run configuration larger count
          = (start smaller cache root).run configuration smaller count := by
  rcases start_enlarged enlarged cache root with lost | same
  · exact .inl (lost.run configuration count)
  · rw [same]
    exact run_enlarged enlarged configuration _ count

end Crawl

end ServiceModules
