import ServiceModules.Proofs.Crawl.Budget
import ServiceModules.Proofs.Files.Write
import ServiceModules.Proofs.Program.Length
import ServiceModules.Workspace

/-!
Every parse in a workspace comes to an end. What can be loaded there lies in memory or in the file
tree, where every file has one resolved path and so one identifier, and what is cached is counted
as well. Parses leave a cache in order for the parses after them.
-/

namespace ServiceModules

/-! ## What is loaded from files -/

namespace FilePath

theorem ne_above_of_mem_climb {reached names : List String} (down : ∀ name ∈ reached, name ≠ "..") :
    ∀ name ∈ climb reached names, name ≠ ".." := by
  induction names generalizing reached with
  | nil => exact down
  | cons first rest induction =>
      rw [climb]
      split
      · exact induction fun name member => down name (List.dropLast_subset _ member)
      · next notAbove =>
        refine induction fun name member => ?_
        rcases List.mem_append.mp member with member | member
        · exact down name member
        · exact List.mem_singleton.mp member ▸ notAbove

end FilePath

theorem FileTree.mem_entries_of_read_resolve {tree : FileTree} {current path : FilePath}
    {content : Bytes} (read : tree.read current (current.resolve path) = .ok content) :
    ((current.resolve path).parts, .file content) ∈ tree.entries := by
  have absolute : current.join (current.resolve path) = current.resolve path := rfl
  have down : ∀ name ∈ (current.resolve path).parts, name ≠ ".." :=
    FilePath.ne_above_of_mem_climb fun _ member => absurd member List.not_mem_nil
  rw [FileTree.read] at read
  split at read
  · cases read
  · split at read
    · cases read
    · next reached reaches =>
      rw [reach, absolute] at reaches
      split at reaches
      · cases reaches
      · cases eq_of_walk_eq_ok down reaches
        split at read
        · cases read
        · split at read
          · cases read
          · cases read
          · next found =>
            cases read
            rw [List.nil_append, entry?] at found
            split at found
            · cases found
            · rcases List.lookup_eq_some_iff.mp found with ⟨front, back, entries, _⟩
              rw [entries]
              exact List.mem_append_right _ (List.mem_cons_self ..)

theorem FileModules.exists_source_of_find {modules : FileModules} {requester : String}
    {path : ImportPath} {found : ModuleSource}
    (isFound : modules.find requester path = .ok (.found found)) :
    ∃ place, found = source modules.current place := by
  rw [find] at isFound
  split at isFound
  · cases isFound
  · dsimp only at isFound
    split at isFound
    · cases isFound
    · next place _ =>
      cases isFound
      exact ⟨place, rfl⟩
    · cases isFound

theorem FileModules.tree_read_of_read {tree : FileTree} {current place : FilePath} {bytes : Bytes}
    (isRead : read tree current (source current place) = .ok bytes) :
    tree.read current (current.resolve place) = .ok bytes := by
  rw [read] at isRead
  simp only [source] at isRead
  cases content : tree.read current (current.resolve place) with
  | error fault =>
      rw [content] at isRead
      cases isRead
  | ok stored =>
      rw [content] at isRead
      cases isRead
      rfl

theorem MemoryModules.exists_source_of_find {modules : MemoryModules} {requester : String}
    {path : ImportPath} {found : ModuleSource}
    (isFound : modules.find requester path = .ok (.found found)) :
    ∃ name content bytes, (name, content) ∈ modules.sources ∧
      content.encode modules.charset = .ok bytes ∧
        found = ⟨Uri.ofModuleName name, .held bytes⟩ := by
  rw [find] at isFound
  split at isFound
  · cases isFound
  · cases isFound
  · next name _ =>
    split at isFound
    · cases isFound
    · next content held =>
      rw [source] at isFound
      split at isFound
      · cases isFound
      · next bytes encoded =>
        cases isFound
        rcases List.lookup_eq_some_iff.mp held with ⟨front, back, sources, _⟩
        refine ⟨name, content, bytes, ?_, encoded, rfl⟩
        rw [sources]
        exact List.mem_append_right _ (List.mem_cons_self ..)

/-! ## The budget of a workspace -/

namespace Workspace

/-- No module of the workspace has more requests than it has bytes, or than are cached. -/
def budget (workspace : Workspace) : Budget :=
  (match workspace.finder with
    | .memory modules => modules.sources.map fun source =>
        (Uri.ofModuleName source.1, contentLength modules.charset source.2)
    | .files _ => []) ++
  workspace.tree.entries.map (fun entry => (Uri.ofPath ⟨.slash, entry.1⟩, entryLength entry.2)) ++
  workspace.cache.entries.map fun entry => (entry.1, requestCount entry.2.module)

variable {workspace : Workspace} {configuration : Configuration}

theorem stepBound_eq (root : ModuleRecord) :
    workspace.stepBound root = root.module.table.imports.length + workspace.budget.total := by
  have lengths : workspace.budget.map Prod.snd =
      (match workspace.finder with
        | .memory modules => modules.sources.map fun source =>
            contentLength modules.charset source.2
        | .files _ => []) ++
      workspace.tree.entries.map (fun entry => entryLength entry.2) ++
      workspace.cache.entries.map fun entry => requestCount entry.2.module := by
    rw [budget]
    cases workspace.finder <;> simp [Function.comp_def]
  rw [stepBound, Budget.total, lengths]
  rfl

def Searches (workspace : Workspace) (finder : Finder) : Prop :=
  finder = workspace.finder ∨ ∃ packagePaths, finder = .files packagePaths

theorem searches_of_finderFor {finder : Finder}
    (chosen : workspace.finderFor configuration = .ok finder) : workspace.Searches finder := by
  rw [finderFor] at chosen
  split at chosen
  · cases resolved : FileModules.resolvePackagePaths workspace.current
      configuration.packagePaths with
    | error fault =>
        rw [resolved] at chosen
        cases chosen
    | ok packagePaths =>
        rw [resolved] at chosen
        cases chosen
        exact .inr ⟨packagePaths, rfl⟩
  · cases chosen
    exact .inl rfl

theorem allows_of_ofBytes {uri : String} {bytes : Bytes} {module : Module}
    (listed : (uri, bytes.length) ∈ workspace.budget)
    (read : Module.ofBytes configuration uri bytes = .ok module) :
    workspace.budget.Allows uri module.table.imports.length :=
  ⟨bytes.length, listed, Module.length_imports_le_of_ofBytes read⟩

theorem affords {finder : Finder} (searches : workspace.Searches finder) {requester : String}
    {path : ImportPath} {source : ModuleSource}
    (found : workspace.findWith finder requester path = .ok (.found source)) :
    (workspace.world finder).Affords configuration workspace.budget source := by
  intro history module loaded
  rw [World.load] at loaded
  split at loaded
  · cases loaded
  · next bytes read =>
    refine allows_of_ofBytes ?_ loaded
    have read : workspace.read source = .ok bytes := read
    cases finder with
    | memory modules =>
        rcases searches with same | ⟨packagePaths, other⟩
        · rcases MemoryModules.exists_source_of_find found with
            ⟨name, content, encoded, member, encodes, rfl⟩
          cases read
          refine List.mem_append_left _ (List.mem_append_left _ ?_)
          rw [← same]
          refine List.mem_map.mpr ⟨(name, content), member, ?_⟩
          rw [contentLength, encodes]
        · cases other
    | files packagePaths =>
        rcases FileModules.exists_source_of_find found with ⟨place, rfl⟩
        have member := FileTree.mem_entries_of_read_resolve (FileModules.tree_read_of_read read)
        exact List.mem_append_left _ (List.mem_append_right _ (List.mem_map.mpr ⟨_, member, rfl⟩))

/-! ## Crawls and parses -/

theorem exists_outcome?_crawlIn {finder : Finder} (searches : workspace.Searches finder)
    (named : workspace.cache.IsNamed) (extra : Nat) (root : ModuleRecord) :
    ∃ outcome, (workspace.crawlIn (workspace.world finder) configuration extra root).outcome? =
      some outcome := by
  refine Crawl.exists_outcome?_of_budget (rfl : (workspace.world finder).IsUndisturbed) ?_ named
    ?_ root ((stepBound_eq root).symm.le.trans (Nat.le_add_right ..))
  · intro history importer request source located
    rw [World.source] at located
    split at located
    · cases located
    · cases located
    · next found =>
      cases located
      exact affords searches found
  · intro uri record held
    have member := List.mem_map_of_mem (f := fun entry : String × ModuleRecord =>
      (entry.1, requestCount entry.2.module)) (ModuleCache.mem_entries_of_get? held)
    exact ⟨_, List.mem_append_right _ member, Nat.le_refl _⟩

theorem parseAt_ends {finder : Finder} (searches : workspace.Searches finder)
    (named : workspace.cache.IsNamed) (uri : String) (content : Content) :
    (workspace.parseAt finder configuration uri content).1 ≠ none ∧
      (workspace.parseAt finder configuration uri content).2.cache.IsNamed := by
  rw [parseAt]
  cases Module.ofContent configuration uri content with
  | error fault => exact ⟨Option.some_ne_none _, named⟩
  | ok module =>
      have begun : (workspace.record module).2.cache.IsNamed := named
      have searches : (workspace.record module).2.Searches finder := searches
      have calm : ((workspace.record module).2.world finder).IsUndisturbed := rfl
      rcases @exists_outcome?_crawlIn _ configuration _ searches begun 0 (workspace.record module).1
        with ⟨outcome, finished⟩
      have kept : (crawlIn (workspace.record module).2 ((workspace.record module).2.world finder)
          configuration 0 (workspace.record module).1).cache.IsNamed :=
        ((Crawl.loadsOnce_start begun _ _).run calm.onlyAdds configuration _).named
      cases outcome with
      | error fault =>
          simp only [finished]
          exact ⟨Option.some_ne_none _, kept⟩
      | ok result =>
          simp only [finished]
          cases result.references <;> exact ⟨Option.some_ne_none _, kept⟩

/-- Every parse answers, also after other parses. -/
theorem parse_ends (named : workspace.cache.IsNamed) (configuration : Configuration)
    (content : Content) (base : String) :
    (workspace.parse configuration content base).1 ≠ none ∧
      (workspace.parse configuration content base).2.cache.IsNamed := by
  rw [parse]
  split
  · exact ⟨Option.some_ne_none _, named⟩
  · exact ⟨Option.some_ne_none _, named⟩
  · next chosen _ => exact parseAt_ends (searches_of_finderFor chosen) named _ content

theorem parseFile_ends (named : workspace.cache.IsNamed) (configuration : Configuration)
    (path : String) :
    (workspace.parseFile configuration path).1 ≠ none ∧
      (workspace.parseFile configuration path).2.cache.IsNamed := by
  rw [parseFile]
  split
  · exact ⟨Option.some_ne_none _, named⟩
  · split
    · exact ⟨Option.some_ne_none _, named⟩
    · exact ⟨Option.some_ne_none _, named⟩
    · next chosen _ => exact parseAt_ends (searches_of_finderFor chosen) named _ _

end Workspace

end ServiceModules
