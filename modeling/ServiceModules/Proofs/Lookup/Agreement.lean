import ServiceModules.Proofs.Files.Look
import ServiceModules.Proofs.Lookup.Naming

/-!
Relative imports in memory and in files. When the files below a directory are the modules that are
held in memory, a relative import leads to a file exactly when it leads to a module in memory, and
then to the file of this module.

Both searches leave as many parts of the importing name as the level says and go down by the path.
In files the directory of the importer is climbed for that, and a second file is looked for, which
would belong to a module with the last name `mod`.
-/

namespace ServiceModules

namespace DottedName

def resolve (name : DottedName) (path : ImportPath) (wellFormed : path.isWellFormed = true) :
    DottedName where
  parts := name.parts.take (name.parts.length - path.level) ++ path.parts
  nonempty := List.append_ne_nil_of_right_ne_nil _ (ImportPath.isWellFormed_iff.mp wellFormed).1
  identifiers := by
    intro part member
    rcases List.mem_append.mp member with member | member
    · exact name.identifiers part (List.mem_of_mem_take member)
    · exact (ImportPath.isWellFormed_iff.mp wellFormed).2 part member

end DottedName

/-- A relative path, written in an import statement, that does not climb further than the importing
name has parts. -/
structure DottedName.Imports (name : DottedName) (path : ImportPath) : Prop where
  wellFormed : path.isWellFormed = true
  relative : path.isRelative = true
  bounded : path.level ≤ name.parts.length

variable {name : DottedName} {path : ImportPath}

theorem MemoryModules.nameOf?_of_imports (imports : name.Imports path) :
    nameOf? name.memoryUri path = .ok (some (name.resolve path imports.wellFormed).text) := by
  have relative : 1 ≤ path.level := of_decide_eq_true imports.relative
  rw [nameOf?_memoryUri, ImportPath.sought?_of_relative relative imports.bounded]
  rfl

namespace FileModules

theorem climb_eq (path : FilePath) (count : Nat) :
    climb path count = { path with parts := path.parts.take (path.parts.length - count) } := by
  induction count generalizing path with
  | zero => rw [climb, Nat.sub_zero, List.take_length]
  | succ count induction =>
      rw [climb, induction, FilePath.parent, List.length_dropLast, List.dropLast_eq_take,
        List.take_take]
      congr 2
      omega

end FileModules

namespace DottedName

def entry (name : DottedName) : DottedName where
  parts := name.parts ++ [FileModules.packageEntry]
  nonempty := List.append_ne_nil_of_right_ne_nil _ (List.cons_ne_nil _ _)
  identifiers := by
    intro part member
    rcases List.mem_append.mp member with member | member
    · exact name.identifiers part member
    · rw [List.mem_singleton.mp member]
      decide

theorem last_entry (name : DottedName) : name.entry.last = FileModules.packageEntry :=
  List.getLastD_concat ..

theorem fileNamesOf_append (kept : List String) {parts : List String} (nonempty : parts ≠ []) :
    fileNamesOf (kept ++ parts) = kept ++ fileNamesOf parts := by
  rw [fileNamesOf, fileNamesOf, List.dropLast_append_of_ne_nil nonempty, List.append_assoc,
    List.getLastD_eq_getLast?, List.getLastD_eq_getLast?, List.getLast?_append,
    List.getLast?_eq_some_getLast nonempty, Option.some_or]

theorem fileNames_injective {name other : DottedName} (same : name.fileNames = other.fileNames) :
    name = other := by
  have ⟨init, lasts⟩ := List.append_inj' (show name.parts.dropLast ++ [name.last ++ _] =
    other.parts.dropLast ++ [other.last ++ _] from same) rfl
  have last := String.append_left_inj _ |>.mp (List.cons.inj lasts).1
  have parts : name.parts = other.parts := by
    rw [← name.dropLast_append_last, init, last, other.dropLast_append_last]
  rcases name with ⟨parts, _, _⟩
  rcases other with ⟨otherParts, _, _⟩
  cases parts
  rfl

end DottedName

namespace FileModules

theorem candidates_eq (base : FilePath) {parts : List String} (nonempty : parts ≠ [])
    (identifiers : ∀ part ∈ parts, Lexeme.isIdentifier part = true) :
    candidates base parts =
      [base.below (DottedName.fileNamesOf parts),
        base.below (DottedName.fileNamesOf (parts ++ [packageEntry]))] := by
  have down : parts.foldl FilePath.child base = base.below parts :=
    FilePath.foldl_child base fun part member =>
      Lexeme.isEntryName_of_isIdentifier (identifiers part member)
  have parent : (base.below parts).parent = base.below parts.dropLast := by
    rw [FilePath.parent, FilePath.below, List.dropLast_append_of_ne_nil nonempty]
    rfl
  have last : (base.below parts).name = parts.getLastD "" := by
    rw [FilePath.name, FilePath.below, List.getLastD_eq_getLast?, List.getLastD_eq_getLast?,
      List.getLast?_append, List.getLast?_eq_some_getLast nonempty, Option.some_or]
  have isPart : parts.getLastD "" ∈ parts := by
    rw [List.getLastD_eq_getLast?, List.getLast?_eq_some_getLast nonempty]
    exact List.getLast_mem nonempty
  have moduleName : FilePath.IsEntryName (parts.getLastD "" ++ moduleExtension) :=
    Lexeme.isEntryName_append_of_isIdentifier (identifiers _ isPart) (by decide)
  have entryName : FilePath.IsEntryName (packageEntry ++ moduleExtension) :=
    Lexeme.isEntryName_append_of_isIdentifier (by decide) (by decide)
  rw [candidates, down, parent, last, FilePath.child_of_isEntryName _ moduleName,
    FilePath.child_of_isEntryName _ entryName, FilePath.below_below, FilePath.below_below,
    DottedName.fileNamesOf, DottedName.fileNamesOf, List.dropLast_concat, List.getLastD_concat]

theorem places_eq (imports : name.Imports path) (modules : FileModules) (root : FilePath) :
    (modules.bases (some (name.file root).parent) path).flatMap
        (fun base => candidates base path.parts) =
      [(name.resolve path imports.wellFormed).file root,
        (name.resolve path imports.wellFormed).entry.file root] := by
  rcases ImportPath.isWellFormed_iff.mp imports.wellFormed with ⟨nonempty, identifiers⟩
  have positive : 0 < path.level := of_decide_eq_true imports.relative
  have bounded := imports.bounded
  have base : climb (name.file root).parent (path.level - 1) =
      root.below (name.parts.take (name.parts.length - path.level)) := by
    have parent : (name.file root).parent = root.below name.parts.dropLast := by
      rw [DottedName.file, DottedName.fileNames, DottedName.fileNamesOf, FilePath.parent,
        FilePath.below, ← List.append_assoc, List.dropLast_concat]
      rfl
    have count : (root.parts ++ name.parts.dropLast).length - (path.level - 1) =
        root.parts.length + (name.parts.length - path.level) := by
      rw [List.length_append, List.length_dropLast]
      omega
    rw [parent, climb_eq, FilePath.below, FilePath.below]
    dsimp only
    rw [count, List.take_length_add_append, List.dropLast_eq_take, List.take_take]
    congr 3
    omega
  rw [bases, if_pos imports.relative, Option.toList_some, List.map_singleton,
    List.flatMap_singleton, base, candidates_eq _ nonempty identifiers, FilePath.below_below,
    FilePath.below_below, ← DottedName.fileNamesOf_append _ nonempty,
    ← DottedName.fileNamesOf_append _ (List.append_ne_nil_of_left_ne_nil nonempty _),
    ← List.append_assoc]
  rfl

end FileModules

/-! ## One set of modules in two places -/

namespace DottedName

variable {root : FilePath}

theorem isCanonical_file (name : DottedName) (canonical : root.IsCanonical) :
    (name.file root).IsCanonical :=
  canonical.below name.isEntryName_of_mem_fileNames

theorem isPlain_file (name : DottedName) (plain : root.IsPlain) : (name.file root).IsPlain := by
  intro part member
  rcases List.mem_append.mp member with member | member
  · exact plain part member
  · rcases List.mem_append.mp member with member | member
    · exact Lexeme.isPlainText_of_isIdentifier (name.isIdentifier_of_mem_dropLast part member)
    · rw [List.mem_singleton.mp member, String.toList_append]
      exact (Lexeme.isPlainText_of_isIdentifier (name.identifiers _ name.last_mem_parts)).append
        isPlainText_moduleExtension

theorem hasNull_file (name : DottedName) (plain : root.IsPlain) :
    (name.file root).hasNull = false := by
  rw [FilePath.hasNull, List.any_eq_false]
  intro part member null
  have plainPart := name.isPlain_file plain part member
  rw [List.contains_iff_mem] at null
  cases plainPart '\x00' null

end DottedName

/-- The regular files below a directory are the modules that are held in memory, byte for byte, each
in the file that its name leads to, and they may all be read. -/
structure MemoryModules.StoredBelow (modules : MemoryModules) (tree : FileTree)
    (current root : FilePath) : Prop where
  named : ∀ text content, modules.sources.lookup text = some content →
    ∃ name : DottedName, name.text = text ∧ name.last ≠ FileModules.packageEntry
  encoded : ∀ text content, modules.sources.lookup text = some content →
    ∃ bytes, content.encode modules.charset = .ok bytes
  files : ∀ names bytes, (∀ fileName ∈ names, FilePath.IsEntryName fileName) →
    (tree.look current (root.below names) = .ok (.file bytes) ↔
      ∃ (name : DottedName) (content : Content), name.fileNames = names ∧
        modules.sources.lookup name.text = some content ∧
        content.encode modules.charset = .ok bytes)
  readable : ∀ (name : DottedName) bytes,
    tree.look current (name.file root) = .ok (.file bytes) →
      tree.read current (name.file root) = .ok bytes

/-- A module as it is found in memory and as it is found in a file: the identifiers are made from
one name, and the bytes are the same. -/
structure MemoryModules.Twins (modules : MemoryModules) (tree : FileTree)
    (current root : FilePath) (held stored : ModuleSource) : Prop where
  located : ∃ (name : DottedName) (content : Content) (bytes : Bytes),
    modules.sources.lookup name.text = some content ∧
    content.encode modules.charset = .ok bytes ∧
    held = ⟨name.memoryUri, .held bytes⟩ ∧
    stored = ⟨name.fileUri root, .stored (name.file root)⟩
  read : FileModules.read tree current held = FileModules.read tree current stored

namespace MemoryModules

variable {modules : MemoryModules} {tree : FileTree} {current root : FilePath}

theorem StoredBelow.isFile_iff (stored : modules.StoredBelow tree current root)
    (plain : root.IsPlain) (name : DottedName) :
    tree.isFile current (name.file root) = .ok true ↔
      ∃ content, modules.sources.lookup name.text = some content := by
  have files := fun bytes => stored.files name.fileNames bytes name.isEntryName_of_mem_fileNames
  rw [FileTree.isFile_eq_true_iff]
  constructor
  · rintro ⟨_, bytes, seen⟩
    rcases (files bytes).mp seen with ⟨other, content, same, listed, _⟩
    rw [DottedName.fileNames_injective same] at listed
    exact ⟨content, listed⟩
  · rintro ⟨content, listed⟩
    rcases stored.encoded _ _ listed with ⟨bytes, encoded⟩
    exact ⟨name.hasNull_file plain, bytes,
      (files bytes).mpr ⟨name, content, rfl, listed, encoded⟩⟩

theorem StoredBelow.isFile_entry (stored : modules.StoredBelow tree current root)
    (plain : root.IsPlain) (name : DottedName) :
    tree.isFile current (name.entry.file root) ≠ .ok true := by
  intro isFile
  rcases (stored.isFile_iff plain name.entry).mp isFile with ⟨content, listed⟩
  rcases stored.named _ _ listed with ⟨other, same, notEntry⟩
  rw [DottedName.text_injective same] at notEntry
  exact notEntry name.last_entry

theorem StoredBelow.read (stored : modules.StoredBelow tree current root)
    {name : DottedName} {content : Content} {bytes : Bytes}
    (listed : modules.sources.lookup name.text = some content)
    (encoded : content.encode modules.charset = .ok bytes) :
    FileModules.read tree current ⟨name.fileUri root, .stored (name.file root)⟩ = .ok bytes := by
  have seen := (stored.files name.fileNames bytes name.isEntryName_of_mem_fileNames).mpr
    ⟨name, content, rfl, listed, encoded⟩
  rw [FileModules.read]
  dsimp only
  rw [stored.readable name bytes seen]
  rfl

/-- In memory and in files a relative import leads to one and the same module, or to none. Where it
leads to none in memory, a look at a file may be refused. -/
theorem StoredBelow.find_agrees (stored : modules.StoredBelow tree current root)
    (canonical : root.IsCanonical) (plain : root.IsPlain) (imports : name.Imports path)
    (packagePaths : List FilePath) :
    (∃ held file, modules.find name.memoryUri path = .ok (.found held) ∧
        FileModules.find ⟨tree, current, packagePaths⟩ (name.fileUri root) path
          = .ok (.found file) ∧
        modules.Twins tree current root held file) ∨
      ∃ missing, modules.find name.memoryUri path = .ok (.missing missing) ∧
        ((∃ missingFile, FileModules.find ⟨tree, current, packagePaths⟩ (name.fileUri root) path
            = .ok (.missing missingFile)) ∨
          ∃ fault, FileModules.find ⟨tree, current, packagePaths⟩ (name.fileUri root) path
            = .error (.file fault)) := by
  have directory : FileModules.directoryOf? (name.fileUri root) =
      .ok (some (name.file root).parent) :=
    Uri.directoryOf?_ofPath (name.isCanonical_file canonical)
  have places := FileModules.places_eq imports ⟨tree, current, packagePaths⟩ root
  generalize targeted : name.resolve path imports.wellFormed = target at places
  have named := nameOf?_of_imports imports
  rw [targeted] at named
  simp only [find, FileModules.find, named, directory, places]
  cases listed : modules.sources.lookup target.text with
  | none =>
      have noFile : tree.isFile current (target.file root) ≠ .ok true := by
        intro isFile
        rcases (stored.isFile_iff plain target).mp isFile with ⟨content, isListed⟩
        cases listed.symm.trans isListed
      right
      refine ⟨_, rfl, ?_⟩
      cases searched : [target.file root, target.entry.file root].findM? (tree.isFile current) with
      | error fault => exact .inr ⟨fault, rfl⟩
      | ok found =>
          cases found with
          | none => exact .inl ⟨_, rfl⟩
          | some place =>
              obtain ⟨isPlace, isFile⟩ := mem_of_findM?_eq_some searched
              rcases List.mem_cons.mp isPlace with rfl | isEntry
              -- Files have a second place, the entry of a directory, where no module is kept.
              · exact absurd isFile noFile
              · rw [List.mem_singleton.mp isEntry] at isFile
                exact absurd isFile (stored.isFile_entry plain target)
  | some content =>
      rcases stored.encoded _ _ listed with ⟨bytes, encoded⟩
      have isFile := (stored.isFile_iff plain target).mpr ⟨content, listed⟩
      left
      rw [findM?_eq_of_find? (List.find?_cons_of_pos (by rw [isFile]; rfl)), isFile]
      refine ⟨⟨target.memoryUri, .held bytes⟩, ⟨target.fileUri root, .stored (target.file root)⟩,
        ?_, ?_, ⟨target, content, bytes, listed, encoded, rfl, rfl⟩, ?_⟩
      · simp only [source, encoded, Except.map]
        rfl
      · simp only [FileModules.source, Except.map,
          FilePath.resolve_of_isCanonical (target.isCanonical_file canonical)]
        rfl
      · rw [stored.read listed encoded]
        rfl

end MemoryModules

end ServiceModules
