import ServiceModules.Proofs.Crawl.Enlargement
import ServiceModules.Proofs.Files.Look
import ServiceModules.Proofs.Upsert
import ServiceModules.Workspace

/-!
Enlarging a finder. Further package paths come behind the ones that are there, and further modules
in memory have names of their own, so that what is found stays where it is found. A crawl that
succeeds therefore succeeds in the same way with the larger finder, and so do the references to the
symbols that it has reached; only an import that leads nowhere may lead somewhere now.
-/

namespace ServiceModules

/-! ## Files -/

namespace FileModules

theorem bases_append (modules : FileModules) (further : List FilePath)
    (directory : Option FilePath) (path : ImportPath) :
    ∃ behind, ({ modules with packagePaths := modules.packagePaths ++ further }
        : FileModules).bases directory path
      = modules.bases directory path ++ behind := by
  unfold bases
  split
  · exact ⟨[], by rw [List.append_nil]⟩
  · rw [← List.append_assoc, List.eraseDups_append]
    exact ⟨_, rfl⟩

theorem find_append (modules : FileModules) (further : List FilePath) (requester : String)
    (path : ImportPath) :
    (∃ missing, modules.find requester path = .ok (.missing missing))
      ∨ ({ modules with packagePaths := modules.packagePaths ++ further } : FileModules).find
          requester path
        = modules.find requester path := by
  unfold find
  cases directoryOf? requester with
  | error fault => exact .inr rfl
  | ok directory =>
    dsimp only
    rcases modules.bases_append further directory path with ⟨behind, bases⟩
    rw [bases, List.flatMap_append]
    cases searched : ((modules.bases directory path).flatMap fun base =>
        candidates base path.parts).findM? (modules.tree.isFile modules.current) with
    | error fault =>
      rw [findM?_append_of_ne_none (by rw [searched]; nofun), searched]
      exact .inr rfl
    | ok found =>
      cases found with
      | none => exact .inl ⟨_, rfl⟩
      | some place =>
        rw [findM?_append_of_ne_none (by rw [searched]; nofun), searched]
        exact .inr rfl

end FileModules

/-! ## Memory -/

namespace MemoryModules

structure EnlargedTo (smaller larger : MemoryModules) : Prop where
  sources : ∀ name content, smaller.sources.lookup name = some content →
    larger.sources.lookup name = some content
  charset : larger.charset = smaller.charset

variable {smaller larger : MemoryModules}

theorem EnlargedTo.find (enlarged : smaller.EnlargedTo larger) (requester : String)
    (path : ImportPath) :
    (∃ missing, smaller.find requester path = .ok (.missing missing))
      ∨ larger.find requester path = smaller.find requester path := by
  unfold MemoryModules.find
  rcases nameOf? requester path with fault | _ | name
  · exact .inr rfl
  · exact .inl ⟨_, rfl⟩
  · cases held : smaller.sources.lookup name with
    | none => exact .inl ⟨⟨path, [Uri.ofModuleName name], requester⟩, by simp only [held]⟩
    | some content =>
      right
      simp only [held, enlarged.sources name content held, source, enlarged.charset]

theorem enlargedTo_set (modules : MemoryModules) {name : String}
    (new : modules.sources.lookup name = none) (content : Content) :
    modules.EnlargedTo (modules.set name content) where
  charset := rfl
  sources := by
    intro held heldContent isHeld
    have different : held ≠ name := by
      rintro rfl
      cases new.symm.trans isHeld
    rw [set, lookup_replaced, if_neg different, isHeld]

end MemoryModules

/-! ## Finders -/

/-- The larger finder has further package paths, or further modules in memory. -/
inductive Finder.EnlargedTo : Finder → Finder → Prop
  | files (paths further : List FilePath) : EnlargedTo (.files paths) (.files (paths ++ further))
  | memory {smaller larger : MemoryModules} (enlarged : smaller.EnlargedTo larger) :
      EnlargedTo (.memory smaller) (.memory larger)

theorem Finder.enlargedTo_of_resolvePackagePaths {current : FilePath}
    {paths further resolved : List FilePath}
    (made : FileModules.resolvePackagePaths current (paths ++ further) = .ok resolved) :
    ∃ first, FileModules.resolvePackagePaths current paths = .ok first
      ∧ Finder.EnlargedTo (.files first) (.files resolved) := by
  unfold FileModules.resolvePackagePaths at made ⊢
  split at made
  · cases made
  · rename_i named
    rw [List.any_append, Bool.or_eq_true, not_or] at named
    cases made
    rw [if_neg named.1, List.map_append]
    exact ⟨_, rfl, .files _ _⟩

namespace Workspace

def crawlWith (workspace : Workspace) (finder : Finder) (configuration : Configuration)
    (cache : ModuleCache) (root : ModuleRecord) (steps : Nat) : Crawl :=
  (Crawl.start (workspace.world finder) cache root).run configuration (workspace.world finder)
    steps

/-- Whatever a workspace comes to with the smaller finder, it comes to with the larger one, unless
an import leads nowhere with the smaller one. -/
structure Conserves (workspace : Workspace) (smaller larger : Finder) : Prop where
  /-- A located import stays where it is. -/
  located : ∀ requester path source,
    workspace.findWith smaller requester path = .ok (.found source) →
      workspace.findWith larger requester path = .ok (.found source)
  refused : ∀ requester path fault,
    workspace.findWith smaller requester path = .error fault →
      workspace.findWith larger requester path = .error fault
  crawled : ∀ configuration cache root steps result,
    (workspace.crawlWith smaller configuration cache root steps).outcome? = some (.ok result) →
      (workspace.crawlWith larger configuration cache root steps).outcome? = some (.ok result)
  stopped : ∀ configuration cache root steps fault,
    (workspace.crawlWith smaller configuration cache root steps).outcome? = some (.error fault) →
      ¬fault.IsUnlocated →
        (workspace.crawlWith larger configuration cache root steps).outcome?
          = some (.error fault)
  /-- The modules and the references of a parse that succeeds are the same, and so is the cache that
  it leaves behind. -/
  parsed : ∀ configuration uri content parsed after,
    workspace.parseAt smaller configuration uri content = (some (.ok parsed), after) →
      workspace.parseAt larger configuration uri content = (some (.ok parsed), after)
  failed : ∀ configuration uri content fault after,
    workspace.parseAt smaller configuration uri content = (some (.error fault), after) →
      ¬fault.IsUnlocated →
        workspace.parseAt larger configuration uri content = (some (.error fault), after)

section

variable {smaller larger : Finder} (enlarged : smaller.EnlargedTo larger) (workspace : Workspace)
include enlarged

theorem findWith_enlarged (requester : String) (path : ImportPath) :
    (∃ missing, workspace.findWith smaller requester path = .ok (.missing missing))
      ∨ workspace.findWith larger requester path
        = workspace.findWith smaller requester path := by
  cases enlarged with
  | files paths further => exact FileModules.find_append ⟨_, _, paths⟩ further requester path
  | memory enlarged => exact enlarged.find requester path

theorem world_enlarged : (workspace.world smaller).EnlargedTo (workspace.world larger) where
  locate := fun _ => workspace.findWith_enlarged enlarged
  read := rfl
  meanwhile := rfl

theorem crawlWith_enlarged (configuration : Configuration) (cache : ModuleCache)
    (root : ModuleRecord) (steps : Nat) :
    (workspace.crawlWith smaller configuration cache root steps).IsLost
      ∨ workspace.crawlWith larger configuration cache root steps
        = workspace.crawlWith smaller configuration cache root steps :=
  Crawl.run_start_enlarged (workspace.world_enlarged enlarged) configuration cache root steps

/-- A parse ends in the same way with both finders, unless it ends at an import that leads nowhere
with the smaller one. -/
theorem parseAt_enlarged (configuration : Configuration) (uri : String) (content : Content) :
    (∃ fault, (workspace.parseAt smaller configuration uri content).1 = some (.error fault)
        ∧ fault.IsUnlocated)
      ∨ workspace.parseAt larger configuration uri content
        = workspace.parseAt smaller configuration uri content := by
  unfold parseAt
  cases Module.ofContent configuration uri content with
  | error fault => exact .inr rfl
  | ok module =>
    have crawled := (workspace.record module).2.crawlWith_enlarged enlarged configuration
      (workspace.record module).2.cache (workspace.record module).1
      ((workspace.record module).2.stepBound (workspace.record module).1 + 0)
    rcases crawled with lost | same
    · left
      rcases lost.outcome? with ⟨fault, failed, unlocated⟩
      rw [crawlWith] at failed
      exact ⟨fault, by simp only [crawlIn, failed], unlocated⟩
    · right
      rw [crawlWith, crawlWith] at same
      simp only [crawlIn, same]

/-- Enlarging a finder is conservative. -/
theorem conserves_of_enlargedTo : workspace.Conserves smaller larger where
  located := by
    intro requester path source found
    rcases workspace.findWith_enlarged enlarged requester path with ⟨missing, isMissing⟩ | same
    · cases isMissing.symm.trans found
    · rw [same, found]
  refused := by
    intro requester path fault refused
    rcases workspace.findWith_enlarged enlarged requester path with ⟨missing, isMissing⟩ | same
    · cases isMissing.symm.trans refused
    · rw [same, refused]
  crawled := by
    intro configuration cache root steps result succeeded
    rcases workspace.crawlWith_enlarged enlarged configuration cache root steps with lost | same
    · rcases lost.outcome? with ⟨fault, failed, _⟩
      cases failed.symm.trans succeeded
    · rw [same, succeeded]
  stopped := by
    intro configuration cache root steps fault stopped located
    rcases workspace.crawlWith_enlarged enlarged configuration cache root steps with lost | same
    · rcases lost.outcome? with ⟨fault, failed, unlocated⟩
      cases failed.symm.trans stopped
      exact absurd unlocated located
    · rw [same, stopped]
  parsed := by
    intro configuration uri content parsed after succeeded
    rcases workspace.parseAt_enlarged enlarged configuration uri content
      with ⟨fault, failed, _⟩ | same
    · rw [succeeded] at failed
      cases failed
    · rw [same, succeeded]
  failed := by
    intro configuration uri content fault after stopped located
    rcases workspace.parseAt_enlarged enlarged configuration uri content
      with ⟨fault, failed, unlocated⟩ | same
    · rw [stopped] at failed
      cases failed
      exact absurd unlocated located
    · rw [same, stopped]

end

/-- A module in the first package path is located there, whatever lies in a further one. -/
theorem conserves_of_enlargedTo_shadowing :
    let tree : FileTree :=
      ⟨[(["first"], .directory), (["first", "a.mg"], .file []),
        (["second"], .directory), (["second", "a.mg"], .file [])], []⟩
    let workspace : Workspace :=
      ⟨tree, ⟨.slash, []⟩, .files [], false, .fixed [], default, .empty⟩
    let first : List FilePath := [⟨.slash, ["first"]⟩]
    let second : List FilePath := [⟨.slash, ["second"]⟩]
    Finder.EnlargedTo (.files first) (.files (first ++ second))
      ∧ workspace.findWith (.files (first ++ second)) "memory:///main.mg" ⟨0, ["a"]⟩
        = .ok (.found ⟨"file:///first/a.mg", .stored ⟨.slash, ["first", "a.mg"]⟩⟩) :=
  ⟨.files _ _, (conserves_of_enlargedTo (.files _ _) _).located _ _ _ (by decide_cbv)⟩

end Workspace

end ServiceModules
