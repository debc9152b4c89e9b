import ServiceModules.Proofs.Crawl.Renaming
import ServiceModules.Proofs.Draft.Paths
import ServiceModules.Proofs.Lookup.Counterpart
import ServiceModules.Proofs.Lookup.Written
import ServiceModules.Proofs.Program.Requests
import ServiceModules.Proofs.References.Renaming
import ServiceModules.Proofs.Workspace.Documentation
import ServiceModules.Proofs.Workspace.Enlargement

/-!
Modules in memory and in files. Modules that are written below a directory as they are held in
memory are found alike by relative imports. So a root module that is parsed with everything that it
imports comes to the same end in both places when all imports are relative: to the same modules and
references in the same order, but for the identifiers.
-/

namespace ServiceModules

/-! ## Modules with relative imports -/

theorem Program.isWellFormed_path_of_ofText {keepsDocumentation : Bool} {uri text : String}
    {program : Program} (read : ofText keepsDocumentation uri text = .ok program) :
    ∀ path ∈ program.paths, path.isWellFormed = true := by
  rcases exists_imports_of_ofText read with ⟨parsed, parses, imports⟩
  intro path member
  rw [paths, List.mem_eraseDups, imports] at member
  rcases List.mem_map.mp member with ⟨statement, isImport, rfl⟩
  exact isWellFormed_path_of_parse parses statement isImport

namespace Module

theorem isWellFormed_path_of_ofBytes {configuration : Configuration} {uri : String}
    {bytes : Bytes} {module : Module} (read : ofBytes configuration uri bytes = .ok module) :
    ∀ request ∈ module.table.imports, request.path.isWellFormed = true := by
  rcases ofText_of_ofBytes_eq_ok read with ⟨text, _, readText⟩
  rcases eq_of_ofText_eq_ok readText with ⟨program, parsed, _, rfl⟩
  intro request member
  have member : request ∈ program.paths.map (program.request uri) := by
    rw [← program.requests_eq]
    exact member
  rcases List.mem_map.mp member with ⟨path, isPath, rfl⟩
  exact Program.isWellFormed_path_of_ofText parsed path isPath

def ImportsWithin (module : Module) (name : DottedName) : Prop :=
  ∀ request ∈ module.table.imports,
    request.path.isRelative = true ∧ request.path.level ≤ name.parts.length

theorem ofContent_renamed {rename : String → String} (configuration : Configuration)
    (uri : String) (content : Content) :
    (ofContent configuration (rename uri) content).toOption =
      (ofContent configuration uri content).toOption.map (Module.renamed rename) := by
  rw [ofContent, ofContent]
  cases content.encode configuration.charset with
  | error fault => rfl
  | ok bytes => exact ofBytes_renamed configuration uri bytes

end Module

/-! ## Parsing under other identifiers -/

namespace ParsedModules

def renamed (rename : String → String) (parsed : ParsedModules) : ParsedModules where
  root := parsed.root.renamed rename
  modules := parsed.modules.renamed rename
  references := parsed.references.renamed rename

theorem ofCrawl?_renamed {rename : String → String} (injective : Function.Injective rename)
    (root : Module) {crawl other : Crawl}
    (ends : other.outcome?.map Except.toOption =
      crawl.outcome?.map fun outcome => outcome.toOption.map (CrawlResult.renamed rename)) :
    (ofCrawl? (root.renamed rename) other).map Except.toOption =
      (ofCrawl? root crawl).map fun outcome => outcome.toOption.map (renamed rename) := by
  rw [ofCrawl?, ofCrawl?]
  cases mine : crawl.outcome? with
  | none =>
      rw [mine, Option.map_none, Option.map_eq_none_iff] at ends
      rw [ends]
      rfl
  | some outcome =>
      rw [mine, Option.map_some] at ends
      rcases Option.map_eq_some_iff.mp ends with ⟨otherOutcome, theirs, same⟩
      rw [theirs]
      rcases eq_ok_or_error_of_toOption_eq same with ⟨result, rfl, rfl⟩ | ⟨_, _, rfl, rfl⟩
      · rcases eq_ok_or_error_of_toOption_eq (result.references_renamed injective) with
          ⟨references, resolved, otherResolved⟩ | ⟨_, _, failed, otherFailed⟩
        · simp only [Option.map_some, Except.bind, resolved, otherResolved]
          rfl
        · simp only [Option.map_some, Except.bind, failed, otherFailed]
          rfl
      · rfl

end ParsedModules

/-! ## Both finders -/

/-- A search in memory and one in files both find a module at one place and with one content, or
both find none. Where there is none, a look at a file may be refused. -/
inductive Workspace.LocatesAlike (workspace : Workspace) (root : FilePath) :
    Except Fault Lookup → Except Fault Lookup → Prop
  | found (place : String) (bytes : Bytes) (path : FilePath)
      (read : workspace.read ⟨"file://" ++ root.descent ++ "/" ++ place, .stored path⟩
        = .ok bytes) :
      LocatesAlike workspace root (.ok (.found ⟨"memory:///" ++ place, .held bytes⟩))
        (.ok (.found ⟨"file://" ++ root.descent ++ "/" ++ place, .stored path⟩))
  | missing (left right : MissingModule) :
      LocatesAlike workspace root (.ok (.missing left)) (.ok (.missing right))
  | refused (left : MissingModule) (fault : FileFault) :
      LocatesAlike workspace root (.ok (.missing left)) (.error (.file fault))

def MemoryModules.ImportWithin (modules : MemoryModules) (configuration : Configuration) : Prop :=
  ∀ (name : DottedName) (content : Content) (bytes : Bytes) (module : Module),
    modules.sources.lookup name.text = some content →
    content.encode modules.charset = .ok bytes →
    Module.ofBytes configuration name.memoryUri bytes = .ok module →
    module.ImportsWithin name

/-- The imports that both finders locate alike. -/
def MemoryModules.IsKnown (requester : String) (path : ImportPath) : Prop :=
  ∃ name : DottedName, requester = name.memoryUri ∧ name.Imports path

namespace Workspace

variable {workspace : Workspace} {root : FilePath} {modules : MemoryModules}
variable {configuration : Configuration}

theorem isKnown_of_ofBytes {name : DottedName} {bytes : Bytes} {module : Module}
    (read : Module.ofBytes configuration name.memoryUri bytes = .ok module)
    (within : module.ImportsWithin name) : module.IsKnown MemoryModules.IsKnown := by
  intro request member
  rcases within request member with ⟨relative, bounded⟩
  exact ⟨name, Module.uri_of_ofBytes_eq_ok read,
    Module.isWellFormed_path_of_ofBytes read request member, relative, bounded⟩

theorem isKnown_of_ofContent {name : DottedName} {content : Content} {module : Module}
    (read : Module.ofContent configuration name.memoryUri content = .ok module)
    (within : module.ImportsWithin name) : module.IsKnown MemoryModules.IsKnown := by
  rw [Module.ofContent] at read
  split at read
  · cases read
  · exact isKnown_of_ofBytes read within

theorem freshBound_renamed (rename : String → String) (table : SymbolTable) :
    workspace.freshBound (table.renamed rename) = workspace.freshBound table := by
  have requests : (table.renamed rename).imports.length = table.imports.length := List.length_map _
  simp only [freshBound, stepBound, requestCount, requests]

theorem ofContent_agrees (canonical : root.IsCanonical) (plain : root.IsPlain)
    (configuration : Configuration) (name : DottedName) (content : Content) :
    (∃ module, Module.ofContent configuration name.memoryUri content = .ok module ∧
        Module.ofContent configuration (name.fileUri root) content
          = .ok (module.renamed (Uri.counterpart root))) ∨
      ∃ fault otherFault, Module.ofContent configuration name.memoryUri content = .error fault ∧
        Module.ofContent configuration (name.fileUri root) content = .error otherFault := by
  have renamed := @Module.ofContent_renamed (Uri.counterpart root) configuration name.memoryUri
    content
  rw [Uri.counterpart_memoryUri canonical plain] at renamed
  exact eq_ok_or_error_of_toOption_eq renamed

section

variable (stored : modules.StoredBelow workspace.tree workspace.current root)
variable (canonical : root.IsCanonical) (plain : root.IsPlain)
include stored canonical plain

theorem locatesAlike {name : DottedName} {path : ImportPath} (imports : name.Imports path)
    (packagePaths : List FilePath) :
    workspace.LocatesAlike root
      (workspace.findWith (.memory modules) name.memoryUri path)
      (workspace.findWith (.files packagePaths) (name.fileUri root) path) := by
  rcases stored.find_agrees canonical plain imports packagePaths with
    ⟨held, file, found, otherFound, ⟨target, content, bytes, _, _, rfl, rfl⟩, read⟩ |
    ⟨missing, notFound, ⟨otherMissing, otherNotFound⟩ | ⟨fault, refused⟩⟩
  · rw [findWith, findWith, found, otherFound, target.memoryUri_eq_append,
      target.fileUri_eq_append canonical plain]
    refine .found target.place bytes (target.file root) ?_
    rw [target.fileUri_eq_append canonical plain] at read
    exact read.symm
  · rw [findWith, findWith, notFound, otherNotFound]
    exact .missing missing otherMissing
  · rw [findWith, findWith, notFound, refused]
    exact .refused missing fault

theorem world_renamedTo (within : modules.ImportWithin configuration)
    (packagePaths : List FilePath) :
    World.RenamedTo (Uri.counterpart root) MemoryModules.IsKnown
      (modules.Twins workspace.tree workspace.current root) configuration
      (workspace.world (.memory modules)) (workspace.world (.files packagePaths)) where
  locate := by
    rintro history otherHistory _ path ⟨name, rfl, imports⟩
    rw [Uri.counterpart_memoryUri canonical plain]
    simp only [world, findWith]
    rcases stored.find_agrees canonical plain imports packagePaths with
      ⟨held, file, found, otherFound, twins⟩ | ⟨missing, notFound, otherMissing | ⟨fault, refused⟩⟩
    · exact .inl ⟨held, file, found, otherFound, twins⟩
    · exact .inr ⟨missing, notFound, .inl otherMissing⟩
    · exact .inr ⟨missing, notFound, .inr ⟨_, refused⟩⟩
  uri := by
    rintro _ _ ⟨⟨name, _, _, _, _, rfl, rfl⟩, _⟩
    exact (Uri.counterpart_memoryUri canonical plain name).symm
  read := fun _ _ twins _ _ => twins.read
  known := by
    rintro _ _ ⟨⟨name, content, bytes, listed, encoded, rfl, rfl⟩, _⟩ history module loaded
    exact isKnown_of_ofBytes loaded (within name content bytes module listed encoded loaded)
  undisturbed := ⟨rfl, rfl⟩

theorem crawlWith_renamed (within : modules.ImportWithin configuration)
    (packagePaths : List FilePath) {module : Module}
    (known : module.IsKnown MemoryModules.IsKnown) (steps : Nat) :
    ((workspace.crawlWith (.files packagePaths) configuration
        (ModuleCache.empty.record (module.renamed (Uri.counterpart root))).2
        (ModuleCache.empty.record (module.renamed (Uri.counterpart root))).1 steps).outcome?.map
          Except.toOption) =
      (workspace.crawlWith (.memory modules) configuration (ModuleCache.empty.record module).2
        (ModuleCache.empty.record module).1 steps).outcome?.map fun outcome =>
          outcome.toOption.map (CrawlResult.renamed (Uri.counterpart root)) := by
  have worlds := world_renamedTo stored canonical plain within packagePaths
  have injective := (Uri.counterpart_involutive root).injective
  have empty : ∀ entry ∈ (ModuleCache.empty.record module).2.entries,
      entry.2.module.IsKnown MemoryModules.IsKnown := fun _ member =>
    absurd member List.not_mem_nil
  have cache : (ModuleCache.empty.record (module.renamed (Uri.counterpart root))).2 =
      (ModuleCache.empty.record module).2.renamed (Uri.counterpart root) := rfl
  have record : (ModuleCache.empty.record (module.renamed (Uri.counterpart root))).1 =
      (ModuleCache.empty.record module).1.renamed (Uri.counterpart root) := rfl
  have start : (ModuleCache.empty.record module).1.module.IsKnown MemoryModules.IsKnown := known
  rw [crawlWith, crawlWith, cache, record]
  exact ((Crawl.start_accompanies worlds injective empty start).run worlds injective
    steps).outcome?

end

/-- With modules in memory and with modules in files a workspace locates the imports that stay
within the importing name alike. Where there are no other imports, it comes to the same modules and
the same references from a root, after any number of steps and over empty caches, but for the
identifiers. -/
structure FindersAgree (workspace : Workspace) (root : FilePath) (modules : MemoryModules)
    (packagePaths : List FilePath) : Prop where
  located : ∀ (name : DottedName) (path : ImportPath), name.Imports path →
    workspace.LocatesAlike root
      (workspace.findWith (.memory modules) name.memoryUri path)
      (workspace.findWith (.files packagePaths) (name.fileUri root) path)
  /-- The root is read under both identifiers, and both crawls come to the same end. -/
  crawled : ∀ (configuration : Configuration) (name : DottedName) (content : Content)
    (module : Module), modules.ImportWithin configuration →
    Module.ofContent configuration name.memoryUri content = .ok module →
    module.ImportsWithin name →
      ∃ file, Module.ofContent configuration (name.fileUri root) content = .ok file ∧
        ∀ steps,
          (workspace.crawlWith (.files packagePaths) configuration
              (ModuleCache.empty.record file).2 (ModuleCache.empty.record file).1
              steps).outcome?.map Except.toOption =
            (workspace.crawlWith (.memory modules) configuration
              (ModuleCache.empty.record module).2 (ModuleCache.empty.record module).1
              steps).outcome?.map fun outcome =>
                outcome.toOption.map (CrawlResult.renamed (Uri.counterpart root))
  /-- A parse crawls from the root and resolves the references. -/
  parsed : ∀ (configuration : Configuration) (name : DottedName) (content : Content),
    modules.ImportWithin configuration →
    (∀ module, Module.ofContent configuration name.memoryUri content = .ok module →
      module.ImportsWithin name) →
      ((workspace.withCache .empty).parseAt (.files packagePaths) configuration
          (name.fileUri root) content).1.map Except.toOption =
        ((workspace.withCache .empty).parseAt (.memory modules) configuration
          name.memoryUri content).1.map fun outcome =>
            outcome.toOption.map (ParsedModules.renamed (Uri.counterpart root))

/-- Modules that are stored below a directory as they are held in memory are found and parsed alike
in both places, whatever the package paths are. -/
theorem findersAgree_of_storedBelow
    (stored : modules.StoredBelow workspace.tree workspace.current root)
    (canonical : root.IsCanonical) (plain : root.IsPlain) (packagePaths : List FilePath) :
    workspace.FindersAgree root modules packagePaths where
  located := fun _ _ imports => locatesAlike stored canonical plain imports packagePaths
  crawled := by
    intro configuration name content module within read rooted
    have known := isKnown_of_ofContent read rooted
    rcases ofContent_agrees canonical plain configuration name content with
      ⟨other, otherRead, file⟩ | ⟨_, _, failed, _⟩
    · cases otherRead.symm.trans read
      exact ⟨_, file, crawlWith_renamed stored canonical plain within packagePaths known⟩
    · cases failed.symm.trans read
  parsed := by
    intro configuration name content within rooted
    rw [parseAt_withCache_empty, parseAt_withCache_empty, World.parse, World.parse]
    rcases ofContent_agrees canonical plain configuration name content with
      ⟨module, read, file⟩ | ⟨_, _, failed, otherFailed⟩
    · have known := isKnown_of_ofContent read (rooted module read)
      have ends := crawlWith_renamed stored canonical plain within packagePaths known
        (workspace.freshBound module.table)
      have steps : workspace.freshBound (module.renamed (Uri.counterpart root)).table =
          workspace.freshBound module.table := freshBound_renamed _ _
      rw [read, file]
      dsimp only
      rw [steps]
      exact ParsedModules.ofCrawl?_renamed (Uri.counterpart_involutive root).injective module ends
    · rw [failed, otherFailed]
      rfl

theorem importsWithin_of_map_path {name : DottedName} {bytes : Bytes} {paths : List ImportPath}
    (read : (Module.ofBytes configuration name.memoryUri bytes).toOption.map
      (fun module => module.table.imports.map ImportRequest.path) = some paths)
    (within : ∀ path ∈ paths, path.isRelative = true ∧ path.level ≤ name.parts.length) :
    ∃ module, Module.ofBytes configuration name.memoryUri bytes = .ok module ∧
      module.ImportsWithin name := by
  cases isRead : Module.ofBytes configuration name.memoryUri bytes with
  | error fault =>
      rw [isRead] at read
      cases read
  | ok module =>
      rw [isRead] at read
      refine ⟨module, rfl, fun request member => within request.path ?_⟩
      rw [← Option.some.inj read]
      exact List.mem_map_of_mem member

/-! Two modules in a package, one of which imports the other. -/

def importerName : DottedName := ⟨["pkg", "main"], by decide, by decide⟩

def importerBytes : Bytes := Utf8.encode "from .util import A".toList

def importedName : DottedName := ⟨["pkg", "util"], by decide, by decide⟩

def importedBytes : Bytes := Utf8.encode "type A: A".toList

def pairedModules : MemoryModules :=
  .setAll ⟨[], "utf-8"⟩ [(importerName, importerBytes), (importedName, importedBytes)]

theorem importer_importsWithin :
    ∃ module, Module.ofBytes default importerName.memoryUri importerBytes = .ok module ∧
      module.ImportsWithin importerName := by
  have paths : (Module.ofBytes default importerName.memoryUri importerBytes).toOption.map
      (fun module => module.table.imports.map ImportRequest.path) = some [⟨1, ["util"]⟩] := by
    cbv
  exact importsWithin_of_map_path paths (by decide)

theorem imported_importsWithin :
    ∃ module, Module.ofBytes default importedName.memoryUri importedBytes = .ok module ∧
      module.ImportsWithin importedName := by
  have paths : (Module.ofBytes default importedName.memoryUri importedBytes).toOption.map
      (fun module => module.table.imports.map ImportRequest.path) = some [] := by
    cbv
  exact importsWithin_of_map_path paths fun _ member => absurd member List.not_mem_nil

theorem pairedModules_importWithin : pairedModules.ImportWithin default := by
  intro name content bytes module listed encoded read
  rw [pairedModules, MemoryModules.setAll, List.foldl_cons, List.foldl_cons, List.foldl_nil,
    MemoryModules.lookup_set, MemoryModules.lookup_set] at listed
  split at listed
  · next same =>
    cases DottedName.text_injective same
    cases listed
    cases encoded
    rcases imported_importsWithin with ⟨other, otherRead, within⟩
    cases otherRead.symm.trans read
    exact within
  · split at listed
    · next same =>
      cases DottedName.text_injective same
      cases listed
      cases encoded
      rcases importer_importsWithin with ⟨other, otherRead, within⟩
      cases otherRead.symm.trans read
      exact within
    · cases listed

/-- Both modules are written into an empty directory and found there as they are in memory, and all
that they import is within their names. -/
theorem findersAgree_of_storedBelow_package :
    let root : FilePath := ⟨.slash, ["src"]⟩
    let tree : FileTree := FileTree.empty.put root.parts .directory
    ∃ made, MemoryModules.writeAll root root
        [(importerName, importerBytes), (importedName, importedBytes)] tree = (none, made) ∧
      let workspace : Workspace := ⟨made, root, .files [], false, .fixed [], default, .empty⟩
      workspace.FindersAgree root pairedModules [] ∧ pairedModules.ImportWithin default ∧
      (∃ module, Module.ofBytes default importerName.memoryUri importerBytes = .ok module ∧
        module.ImportsWithin importerName) ∧
      workspace.LocatesAlike root
        (.ok (.found ⟨"memory:///pkg/util.mg", .held importedBytes⟩))
        (workspace.findWith (.files []) (importerName.fileUri root) ⟨1, ["util"]⟩) := by
  intro root tree
  have canonical : root.IsCanonical := by
    refine ⟨rfl, fun name member => ?_⟩
    rw [List.mem_singleton.mp member]
    exact Lexeme.isEntryName_of_isIdentifier (by decide)
  have plain : root.IsPlain := by
    intro name member
    rw [List.mem_singleton.mp member]
    exact Lexeme.isPlainText_of_isIdentifier (by decide)
  have closed : (FileTree.empty.put ([] ++ ["src"]) .directory).IsClosed :=
    FileTree.isClosed_empty.put rfl (by decide) (by decide) .directory
  have usable : ∀ entry ∈ [(importerName, importerBytes), (importedName, importedBytes)],
      (entry.1.file root).IsUsable := by
    intro entry member
    rcases List.mem_pair.mp member with rfl | rfl
    · exact ⟨by decide, by decide, by decide⟩
    · exact ⟨by decide, by decide, by decide⟩
  have empty : ∀ names, names ≠ [] → tree.entry? (root.parts ++ names) = none := by
    intro names nonempty
    have below : root.parts ++ names ≠ [] ++ ["src"] := fun same =>
      nonempty (List.append_right_eq_self.mp same)
    exact (FileTree.entry?_put ..).trans (if_neg below)
  have notEntries : ∀ entry ∈ [(importerName, importerBytes), (importedName, importedBytes)],
      entry.1.last ≠ FileModules.packageEntry := by
    intro entry member
    rcases List.mem_pair.mp member with rfl | rfl <;> decide
  have found : pairedModules.find importerName.memoryUri ⟨1, ["util"]⟩ =
      .ok (.found ⟨"memory:///pkg/util.mg", .held importedBytes⟩) := by
    decide_cbv
  rcases MemoryModules.storedBelow_of_writeAll closed rfl empty canonical "utf-8" root usable
    notEntries with ⟨made, isWritten, stored⟩
  let workspace : Workspace := ⟨made, root, .files [], false, .fixed [], default, .empty⟩
  have agree : workspace.FindersAgree root pairedModules [] :=
    findersAgree_of_storedBelow stored canonical plain []
  have located := agree.located importerName ⟨1, ["util"]⟩ ⟨by decide, by decide, by decide⟩
  rw [findWith, found] at located
  exact ⟨made, isWritten, agree, pairedModules_importWithin, importer_importsWithin, located⟩

end Workspace

end ServiceModules
