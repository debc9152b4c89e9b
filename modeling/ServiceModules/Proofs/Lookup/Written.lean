import ServiceModules.Proofs.Files.Write
import ServiceModules.Proofs.Lookup.Agreement

/-!
Writing modules. Modules that are given to memory and written below an empty directory, one after
the other, are stored there as they are held in memory. What stands below the directory then are the
files of the modules, whose names end in the extension, and directories, whose names are
identifiers; no file of a further module stands in the way.
-/

namespace ServiceModules

theorem Lexeme.isIdentifier_append_moduleExtension (text : String) :
    isIdentifier (text ++ moduleExtension) = false := by
  by_contra identifier
  rw [Bool.not_eq_false] at identifier
  have noDot : '.' ∉ (text ++ moduleExtension).toList := not_mem_of_isIdentifier identifier rfl
  rw [String.toList_append, DottedName.toList_moduleExtension] at noDot
  exact noDot (List.mem_append_right _ (List.mem_cons_self ..))

namespace DottedName

theorem not_prefix_of_isIdentifier (name : DottedName) {names : List String}
    (identifiers : ∀ part ∈ names, Lexeme.isIdentifier part = true) :
    ¬ name.fileNames <+: names := by
  intro above
  have identifier := identifiers _ (above.subset name.last_mem_fileNames)
  rw [Lexeme.isIdentifier_append_moduleExtension] at identifier
  cases identifier

theorem file_eq_below (name : DottedName) (root : FilePath) :
    name.file root = (root.below name.parts.dropLast).below [name.last ++ moduleExtension] := by
  rw [FilePath.below_below]
  rfl

end DottedName

namespace MemoryModules

theorem lookup_set (modules : MemoryModules) (text : String) (content : Content) (other : String) :
    (modules.set text content).sources.lookup other =
      if other = text then some content else modules.sources.lookup other :=
  lookup_replaced modules.sources text content other

/-- In a closed tree there is nothing below a directory but the files of the modules, and
directories with identifiers for names. -/
structure WrittenBelow (modules : MemoryModules) (tree : FileTree) (root : FilePath) : Prop where
  closed : tree.IsClosed
  named : ∀ text content, modules.sources.lookup text = some content →
    ∃ name : DottedName, name.text = text ∧ name.last ≠ FileModules.packageEntry
  encoded : ∀ text content, modules.sources.lookup text = some content →
    ∃ bytes, content.encode modules.charset = .ok bytes
  directory : tree.entry? root.parts = some .directory
  directories : ∀ names, tree.entry? (root.parts ++ names) = some .directory →
    ∀ part ∈ names, Lexeme.isIdentifier part = true
  files : ∀ names bytes, tree.entry? (root.parts ++ names) = some (.file bytes) ↔
    ∃ (name : DottedName) (content : Content), name.fileNames = names ∧
      modules.sources.lookup name.text = some content ∧
      content.encode modules.charset = .ok bytes
  usable : ∀ (name : DottedName) content, modules.sources.lookup name.text = some content →
    (name.file root).IsUsable

variable {modules : MemoryModules} {tree : FileTree} {root : FilePath}

theorem WrittenBelow.storedBelow (written : modules.WrittenBelow tree root)
    (canonical : root.IsCanonical) (current : FilePath) :
    modules.StoredBelow tree current root where
  named := written.named
  encoded := written.encoded
  files := by
    intro names bytes entryNames
    have isCanonical := canonical.below entryNames
    constructor
    · intro seen
      exact (written.files names bytes).mp
        ((written.closed.find_eq_ok_iff isCanonical current).mp (FileTree.find_of_look seen))
    · rintro ⟨name, content, rfl, listed, encoded⟩
      exact written.closed.look_of_entry isCanonical current (written.usable name content listed)
        ((written.files _ bytes).mpr ⟨name, content, rfl, listed, encoded⟩)
  readable := by
    intro name bytes seen
    have stands := (written.closed.find_eq_ok_iff (name.isCanonical_file canonical) current).mp
      (FileTree.find_of_look seen)
    rcases (written.files _ bytes).mp stands with ⟨other, content, same, listed, _⟩
    rw [DottedName.fileNames_injective same] at listed
    exact FileTree.read_of_look written.closed.unlocked (written.usable name content listed).noNull
      seen

theorem writtenBelow_empty (closed : tree.IsClosed)
    (directory : tree.entry? root.parts = some .directory)
    (empty : ∀ names, names ≠ [] → tree.entry? (root.parts ++ names) = none) (charset : String) :
    WrittenBelow ⟨[], charset⟩ tree root where
  closed := closed
  named := fun _ _ listed => nomatch listed
  encoded := fun _ _ listed => nomatch listed
  directory := directory
  directories := by
    intro names stands part member
    rw [empty names (List.ne_nil_of_mem member)] at stands
    cases stands
  usable := fun _ _ listed => nomatch listed
  files := by
    intro names bytes
    constructor
    · intro stands
      by_cases top : names = []
      · rw [top, List.append_nil, directory] at stands
        cases stands
      · rw [empty names top] at stands
        cases stands
    · rintro ⟨_, _, _, listed, _⟩
      cases listed

theorem WrittenBelow.isClear (written : modules.WrittenBelow tree root) {names : List String}
    (identifiers : ∀ part ∈ names, Lexeme.isIdentifier part = true) :
    tree.IsClear (root.parts ++ names) := by
  intro above content isAbove stands
  -- A file on the way would stand above the directory, or below it and belong to a module.
  rcases List.prefix_or_prefix_of_prefix isAbove (List.prefix_append root.parts names) with
    outside | ⟨inside, rfl⟩
  · by_cases same : above = root.parts
    · rw [same, written.directory] at stands
      cases stands
    · rw [written.closed.directory_of_prefix outside same
        (written.directory ▸ Option.some_ne_none _)] at stands
      cases stands
  · rcases (written.files inside content).mp stands with ⟨name, _, rfl, _⟩
    exact name.not_prefix_of_isIdentifier identifiers
      ((List.prefix_append_right_inj root.parts).mp isAbove)

theorem WrittenBelow.write (written : modules.WrittenBelow tree root) (canonical : root.IsCanonical)
    (current : FilePath) (name : DottedName) (usable : (name.file root).IsUsable) (bytes : Bytes) :
    ∃ made, tree.write current (name.file root) bytes = (none, made) ∧ made.IsClosed ∧
      ∀ names, made.entry? (root.parts ++ names) =
        if names = name.fileNames then some (.file bytes)
        else if names <+: name.parts.dropLast then some .directory
        else tree.entry? (root.parts ++ names) := by
  have parentCanonical : (root.below name.parts.dropLast).IsCanonical :=
    canonical.below fun part member =>
      Lexeme.isEntryName_of_isIdentifier (name.isIdentifier_of_mem_dropLast part member)
  have entryName : FilePath.IsEntryName (name.last ++ moduleExtension) :=
    name.isEntryName_of_mem_fileNames _ name.last_mem_fileNames
  have whole : root.parts ++ name.parts.dropLast ++ [name.last ++ moduleExtension] =
      root.parts ++ name.fileNames := List.append_assoc ..
  have leaf : tree.entry? (root.parts ++ name.parts.dropLast ++ [name.last ++ moduleExtension]) ≠
      some .directory := by
    intro stands
    rw [whole] at stands
    exact name.not_prefix_of_isIdentifier (written.directories _ stands) (List.prefix_refl _)
  rw [name.file_eq_below] at usable ⊢
  rcases written.closed.write current parentCanonical entryName usable
    (written.isClear name.isIdentifier_of_mem_dropLast) leaf bytes with
    ⟨made, isWritten, closed, entries⟩
  refine ⟨made, isWritten, closed, fun names => ?_⟩
  rw [entries]
  simp only [FilePath.below, whole, List.append_cancel_left_eq, List.prefix_append_right_inj]

theorem WrittenBelow.files_set (written : modules.WrittenBelow tree root) {name : DottedName}
    {content : Content} {bytes : Bytes} (isEncoded : content.encode modules.charset = .ok bytes)
    {made : FileTree}
    (entries : ∀ names, made.entry? (root.parts ++ names) =
      if names = name.fileNames then some (.file bytes)
      else if names <+: name.parts.dropLast then some .directory
      else tree.entry? (root.parts ++ names))
    (names : List String) (otherBytes : Bytes) :
    made.entry? (root.parts ++ names) = some (.file otherBytes) ↔
      ∃ (other : DottedName) (held : Content), other.fileNames = names ∧
        (modules.set name.text content).sources.lookup other.text = some held ∧
        held.encode modules.charset = .ok otherBytes := by
  rw [entries]
  constructor
  · intro stands
    split at stands
    · next same =>
      cases stands
      exact ⟨name, content, same.symm, by rw [lookup_set, if_pos rfl], isEncoded⟩
    · next different =>
      split at stands
      · cases stands
      · rcases (written.files names otherBytes).mp stands with ⟨other, held, rfl, listed, encoded⟩
        have apart : other.text ≠ name.text := fun same =>
          different (congrArg DottedName.fileNames (DottedName.text_injective same))
        exact ⟨other, held, rfl, by rwa [lookup_set, if_neg apart], encoded⟩
  · rintro ⟨other, held, rfl, listed, encoded⟩
    rw [lookup_set] at listed
    split at listed
    · next same =>
      cases listed
      cases DottedName.text_injective same
      cases isEncoded.symm.trans encoded
      rw [if_pos rfl]
    -- The files of the other modules are neither the new file nor directories on the way to it.
    · next different =>
      have apart : other.fileNames ≠ name.fileNames := fun same =>
        different (congrArg DottedName.text (DottedName.fileNames_injective same))
      have outside := other.not_prefix_of_isIdentifier name.isIdentifier_of_mem_dropLast
      rw [if_neg apart, if_neg outside]
      exact (written.files _ otherBytes).mpr ⟨other, held, rfl, listed, encoded⟩

theorem WrittenBelow.set (written : modules.WrittenBelow tree root) (canonical : root.IsCanonical)
    (current : FilePath) {name : DottedName} (usable : (name.file root).IsUsable)
    (notEntry : name.last ≠ FileModules.packageEntry) {content : Content} {bytes : Bytes}
    (isEncoded : content.encode modules.charset = .ok bytes) :
    ∃ made, tree.write current (name.file root) bytes = (none, made) ∧
      (modules.set name.text content).WrittenBelow made root := by
  rcases written.write canonical current name usable bytes with ⟨made, isWritten, closed, entries⟩
  have notNil : name.fileNames ≠ [] :=
    List.append_ne_nil_of_right_ne_nil _ (List.cons_ne_nil _ _)
  refine ⟨made, isWritten, closed, ?named, ?encoded, ?directory, ?directories, ?files,
    ?usable⟩
  case named =>
    intro text held listed
    rw [lookup_set] at listed
    split at listed
    · next same => exact ⟨name, same.symm, notEntry⟩
    · exact written.named text held listed
  case encoded =>
    intro text held listed
    rw [lookup_set] at listed
    split at listed
    · cases listed
      exact ⟨bytes, isEncoded⟩
    · exact written.encoded text held listed
  case directory =>
    have top := entries []
    rwa [List.append_nil, if_neg notNil.symm, if_pos List.nil_prefix] at top
  case directories =>
    intro names stands part member
    rw [entries] at stands
    split at stands
    · cases stands
    · split at stands
      · next above => exact name.isIdentifier_of_mem_dropLast part (above.subset member)
      · exact written.directories names stands part member
  case files => exact written.files_set isEncoded entries
  case usable =>
    intro other held listed
    rw [lookup_set] at listed
    split at listed
    · next same => exact DottedName.text_injective same ▸ usable
    · exact written.usable other held listed

def setAll (modules : MemoryModules) (given : List (DottedName × Bytes)) : MemoryModules :=
  given.foldl (fun modules entry => modules.set entry.1.text (.bytes entry.2)) modules

/-- Modules are written below a directory until one of them is refused. -/
def writeAll (current root : FilePath) :
    List (DottedName × Bytes) → FileTree → Option FileFault × FileTree
  | [], tree => (none, tree)
  | entry :: rest, tree =>
    match tree.write current (entry.1.file root) entry.2 with
    | (some fault, made) => (some fault, made)
    | (none, made) => writeAll current root rest made

theorem WrittenBelow.setAll (written : modules.WrittenBelow tree root)
    (canonical : root.IsCanonical) (current : FilePath) (given : List (DottedName × Bytes))
    (usable : ∀ entry ∈ given, (entry.1.file root).IsUsable)
    (notEntries : ∀ entry ∈ given, entry.1.last ≠ FileModules.packageEntry) :
    ∃ made, writeAll current root given tree = (none, made) ∧
      (modules.setAll given).WrittenBelow made root := by
  induction given generalizing modules tree with
  | nil => exact ⟨tree, rfl, written⟩
  | cons entry rest induction =>
      have encoded : (Content.bytes entry.2).encode modules.charset = .ok entry.2 := rfl
      rcases written.set canonical current (usable entry (List.mem_cons_self ..))
        (notEntries entry (List.mem_cons_self ..)) encoded with ⟨made, isWritten, next⟩
      rw [writeAll, isWritten]
      exact induction next (fun other member => usable other (List.mem_cons_of_mem _ member))
        fun other member => notEntries other (List.mem_cons_of_mem _ member)

/-- Modules that are written below an empty directory are stored there. -/
theorem storedBelow_of_writeAll (closed : tree.IsClosed)
    (directory : tree.entry? root.parts = some .directory)
    (empty : ∀ names, names ≠ [] → tree.entry? (root.parts ++ names) = none)
    (canonical : root.IsCanonical) (charset : String) (current : FilePath)
    {given : List (DottedName × Bytes)} (usable : ∀ entry ∈ given, (entry.1.file root).IsUsable)
    (notEntries : ∀ entry ∈ given, entry.1.last ≠ FileModules.packageEntry) :
    ∃ made, writeAll current root given tree = (none, made) ∧
      (MemoryModules.setAll ⟨[], charset⟩ given).StoredBelow made current root := by
  rcases (writtenBelow_empty closed directory empty charset).setAll canonical current given
    usable notEntries with ⟨made, isWritten, written⟩
  exact ⟨made, isWritten, written.storedBelow canonical current⟩

end MemoryModules

end ServiceModules
