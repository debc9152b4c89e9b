import Mathlib
import ServiceModules.Proofs.Crawl.Visit

/-!
Suggestions are advice. Two crawls of worlds that differ only in where the candidates for
suggestions come from ask the same questions and leave the same modules behind; when an import leads
nowhere, their faults are the same but for the advice.

Only the world looks at candidates, and only when it gives up a request. So two such crawls are one
crawl until both of them fail at once.
-/

namespace ServiceModules

def Report.withoutHelp (report : Report) : Report :=
  { report with diagnostic := { report.diagnostic with help := none } }

namespace Fault

/-- The same fault, but for the advice that goes with an import that leads nowhere. -/
inductive SameButAdvice : Fault → Fault → Prop
  | same (fault : Fault) : SameButAdvice fault fault
  | advised {missing : MissingModule} {location : Option Location} {text : String}
      (leftSuggestions leftModules rightSuggestions rightModules : List String) :
      SameButAdvice
        (.unlocated ⟨missing, location, text, leftSuggestions, leftModules⟩)
        (.unlocated ⟨missing, location, text, rightSuggestions, rightModules⟩)

namespace SameButAdvice

variable {left right : Fault}

theorem message_eq (alike : left.SameButAdvice right) : left.message = right.message := by
  cases alike <;> rfl

theorem location?_eq (alike : left.SameButAdvice right) : left.location? = right.location? := by
  cases alike <;> rfl

theorem report?_eq (alike : left.SameButAdvice right) :
    left.report?.map Report.withoutHelp = right.report?.map Report.withoutHelp := by
  cases alike <;> rfl

end SameButAdvice

end Fault

/-- Both succeed with the same value, or both fail with the same fault but for the advice. -/
inductive EndAlike {Value : Type} : Except Fault Value → Except Fault Value → Prop
  | succeed (value : Value) : EndAlike (.ok value) (.ok value)
  | fail {left right : Fault} (alike : left.SameButAdvice right) :
      EndAlike (.error left) (.error right)

theorem EndAlike.eq_ok_or_error {Value : Type} {left right : Except Fault Value}
    (alike : EndAlike left right) :
    (∃ value, left = .ok value ∧ right = .ok value)
      ∨ ∃ leftFault rightFault, left = .error leftFault ∧ right = .error rightFault
          ∧ leftFault.SameButAdvice rightFault := by
  cases alike with
  | succeed value => exact .inl ⟨value, rfl, rfl⟩
  | fail alike => exact .inr ⟨_, _, rfl, rfl, alike⟩

def World.withCandidates (world : World) (candidates : List String → List String) : World :=
  { world with candidates := candidates }

variable (world : World) (configuration : Configuration)
variable (left right : List String → List String)

namespace World

theorem source_endsAlike (history : History) (importer : Module) (request : ImportRequest) :
    EndAlike ((world.withCandidates left).source history importer request)
      ((world.withCandidates right).source history importer request) := by
  simp only [source, withCandidates]
  split
  · exact .fail (.same _)
  · exact .fail (.advised _ _ _ _)
  · exact .succeed _

theorem load_withCandidates (candidates : List String → List String) (history : History)
    (source : ModuleSource) :
    (world.withCandidates candidates).load configuration history source
      = world.load configuration history source :=
  rfl

end World

structure Expansion.Alike (left right : Expansion) : Prop where
  outcome : EndAlike left.outcome right.outcome
  requests : left.requests = right.requests
  history : left.history = right.history

namespace Expansion

theorem Alike.prepend {leftRest rightRest : Expansion} (alike : leftRest.Alike rightRest)
    (request : ImportRequest) (pending : Pending) :
    (leftRest.prepend request pending).Alike (rightRest.prepend request pending) where
  outcome := by
    rcases alike.outcome.eq_ok_or_error with ⟨found, leftFound, rightFound⟩
      | ⟨_, _, leftFailed, rightFailed, same⟩
    · rw [Expansion.prepend, Expansion.prepend, leftFound, rightFound]
      exact .succeed _
    · rw [Expansion.prepend, Expansion.prepend, leftFailed, rightFailed]
      exact .fail same
  requests := congrArg (request :: ·) alike.requests
  history := alike.history

theorem ofRequests_alike (module : Module) (requests : List ImportRequest) (history : History) :
    (ofRequests (world.withCandidates left) module history requests).Alike
      (ofRequests (world.withCandidates right) module history requests) := by
  induction requests generalizing history with
  | nil => exact ⟨.succeed _, rfl, rfl⟩
  | cons request rest induction =>
    unfold ofRequests
    cases request.target with
    | some target => exact (induction history).prepend _ _
    | none =>
      rcases (world.source_endsAlike left right history module request).eq_ok_or_error
        with ⟨source, leftFound, rightFound⟩ | ⟨_, _, leftFailed, rightFailed, same⟩
      · simp only [leftFound, rightFound]
        exact (induction _).prepend _ _
      · simp only [leftFailed, rightFailed]
        exact ⟨.fail same, rfl, rfl⟩

theorem ofModule_alike (module : Module) (history : History) :
    (ofModule (world.withCandidates left) module history).Alike
      (ofModule (world.withCandidates right) module history) :=
  ofRequests_alike world left right module module.table.imports history

end Expansion

namespace Crawl

/-- One crawl, or two that were one until both failed. -/
inductive Alike : Crawl → Crawl → Prop
  | same (crawl : Crawl) : Alike crawl crawl
  | failed (crawl : Crawl) {left right : Fault} (alike : left.SameButAdvice right) :
      Alike (crawl.fail left) (crawl.fail right)

theorem expandedRoot_withCandidates (root : ModuleRecord) :
    expandedRoot (world.withCandidates left) root
      = expandedRoot (world.withCandidates right) root := by
  simp only [expandedRoot, Expansion.expanded,
    (Expansion.ofModule_alike world left right root.module []).requests]

variable (crawl : Crawl)

theorem expand_alike (module : Module) :
    (crawl.expand (world.withCandidates left) module).Alike
      (crawl.expand (world.withCandidates right) module) := by
  have alike := Expansion.ofModule_alike world left right module crawl.history
  rcases alike.outcome.eq_ok_or_error with ⟨found, leftFound, rightFound⟩
    | ⟨_, _, leftFailed, rightFailed, same⟩
  · simp only [expand, leftFound, rightFound, Expansion.expanded, alike.requests, alike.history]
    exact .same _
  · simp only [expand, leftFailed, rightFailed, alike.history]
    exact .failed _ same

theorem load_alike (source : ModuleSource) :
    (crawl.load configuration (world.withCandidates left) source).Alike
      (crawl.load configuration (world.withCandidates right) source) := by
  have meanwhile : ∀ candidates : List String → List String,
      (world.withCandidates candidates).meanwhile = world.meanwhile := fun _ => rfl
  simp only [load, World.load_withCandidates, meanwhile]
  cases (world.meanwhile source.uri crawl.cache).1 with
  | some fault => exact .same _
  | none =>
    cases world.load configuration (crawl.history ++ [.load source.uri]) source with
    | error fault => exact .same _
    | ok module => exact expand_alike world left right _ _

theorem relocate_alike (pending : Pending) :
    (crawl.relocate configuration (world.withCandidates left) pending).Alike
      (crawl.relocate configuration (world.withCandidates right) pending) := by
  rcases (world.source_endsAlike left right crawl.history pending.importer
    pending.request).eq_ok_or_error
    with ⟨source, leftFound, rightFound⟩ | ⟨_, _, leftFailed, rightFailed, same⟩
  · simp only [relocate, leftFound, rightFound]
    split
    · exact load_alike world configuration left right _ _
    · exact .same _
  · simp only [relocate, leftFailed, rightFailed]
    exact .failed _ same

theorem visit_alike (pending : Pending) :
    (crawl.visit configuration (world.withCandidates left) pending).Alike
      (crawl.visit configuration (world.withCandidates right) pending) := by
  unfold visit
  split
  · exact .same _
  · split
    · exact .same _
    · split
      · exact load_alike world configuration left right _ _
      · exact relocate_alike world configuration left right _ _

theorem step_alike :
    (crawl.step configuration (world.withCandidates left)).Alike
      (crawl.step configuration (world.withCandidates right)) := by
  unfold step
  split
  · exact visit_alike world configuration left right _ _
  · exact .same _

/-- Crawls that are alike stay so: either they are still one crawl, or they are over. -/
theorem Alike.run {leftCrawl rightCrawl : Crawl} (alike : leftCrawl.Alike rightCrawl)
    (count : Nat) :
    (leftCrawl.run configuration (world.withCandidates left) count).Alike
      (rightCrawl.run configuration (world.withCandidates right) count) := by
  induction count generalizing leftCrawl rightCrawl with
  | zero => exact alike
  | succ count induction =>
    cases alike with
    | same => exact induction (step_alike world configuration left right _)
    | failed crawl alike =>
      rw [run_of_outcome? rfl, run_of_outcome? rfl]
      exact .failed crawl alike

theorem start_alike (cache : ModuleCache) (root : ModuleRecord) :
    (start (world.withCandidates left) cache root).Alike
      (start (world.withCandidates right) cache root) := by
  have alike := Expansion.ofModule_alike world left right root.module []
  have expanded := expandedRoot_withCandidates world left right root
  rcases alike.outcome.eq_ok_or_error with ⟨found, leftFound, rightFound⟩
    | ⟨_, _, leftFailed, rightFailed, same⟩
  · simp only [start, leftFound, rightFound, expanded, alike.history]
    exact .same _
  · simp only [start, leftFailed, rightFailed, expanded, alike.history]
    exact .failed _ same

/-- The two crawls have asked the same, hold the same modules, and come to the same end. -/
structure DifferOnlyInAdvice (left right : Crawl) : Prop where
  history : left.history = right.history
  cache : left.cache = right.cache
  result : left.result = right.result
  queue : left.queue = right.queue
  outcome : Option.Rel EndAlike left.outcome? right.outcome?
  told : ∀ leftFault rightFault, left.outcome? = some (.error leftFault) →
    right.outcome? = some (.error rightFault) →
      leftFault.message = rightFault.message
        ∧ leftFault.location? = rightFault.location?
        ∧ leftFault.report?.map Report.withoutHelp = rightFault.report?.map Report.withoutHelp

theorem outcome?_rel_self : Option.Rel EndAlike crawl.outcome? crawl.outcome? := by
  cases crawl.outcome? with
  | none => exact .none
  | some outcome =>
    cases outcome with
    | error fault => exact .some (.fail (.same fault))
    | ok result => exact .some (.succeed result)

theorem Alike.differOnlyInAdvice {leftCrawl rightCrawl : Crawl}
    (alike : leftCrawl.Alike rightCrawl) : leftCrawl.DifferOnlyInAdvice rightCrawl := by
  cases alike with
  | same =>
    refine ⟨rfl, rfl, rfl, rfl, outcome?_rel_self leftCrawl, ?_⟩
    intro leftFault rightFault leftEnd rightEnd
    cases leftEnd.symm.trans rightEnd
    exact ⟨rfl, rfl, rfl⟩
  | failed crawl alike =>
    refine ⟨rfl, rfl, rfl, rfl, .some (.fail alike), ?_⟩
    intro leftFault rightFault leftEnd rightEnd
    cases leftEnd
    cases rightEnd
    exact ⟨alike.message_eq, alike.location?_eq, alike.report?_eq⟩

/-- Candidates change nothing but advice: the root is expanded to the same, and after any number of
steps the crawls differ in no more than the advice of the fault that has ended both. -/
theorem candidates_change_only_advice (cache : ModuleCache) (root : ModuleRecord) (count : Nat) :
    expandedRoot (world.withCandidates left) root
        = expandedRoot (world.withCandidates right) root
      ∧ ((start (world.withCandidates left) cache root).run configuration
          (world.withCandidates left) count).DifferOnlyInAdvice
        ((start (world.withCandidates right) cache root).run configuration
          (world.withCandidates right) count) :=
  ⟨expandedRoot_withCandidates world left right root,
    ((start_alike world left right cache root).run world configuration left right
      count).differOnlyInAdvice⟩

end Crawl

end ServiceModules
