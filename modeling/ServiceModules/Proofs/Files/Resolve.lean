import ServiceModules.Lookup.Files
import ServiceModules.Proofs.Files.Canonical
import ServiceModules.Proofs.Files.Look

/-!
Resolved paths. A path that was read from a text, and every path that is made from such paths, has
only names that can stand between two slashes. In a canonical directory it resolves to a canonical
path.
-/

namespace ServiceModules

namespace FilePath

variable {path other current : FilePath}

theorem isSpelled_ofText (text : String) : (ofText text).IsSpelled := by
  intro name member
  rcases List.mem_map.mp member with ⟨part, partMember, rfl⟩
  rcases List.mem_filter.mp partMember with ⟨isPart, named⟩
  rw [IsSpelledName, String.toList_ofList]
  exact ⟨named, Text.not_mem_of_mem_split part isPart⟩

theorem hasNull_ofText {text : String} (noNull : '\x00' ∉ text.toList) :
    (ofText text).hasNull = false := by
  rw [hasNull, List.any_eq_false]
  intro name member hasNull
  rcases List.mem_map.mp member with ⟨part, isPart, rfl⟩
  rw [String.toList_ofList, List.contains_iff_mem] at hasNull
  exact noNull (Text.subset_of_mem_split (List.mem_filter.mp isPart).1 hasNull)

theorem IsSpelled.parent (spelled : path.IsSpelled) : path.parent.IsSpelled :=
  fun name member => spelled name (List.dropLast_subset _ member)

theorem IsSpelled.join (spelled : path.IsSpelled) (spelledOther : other.IsSpelled) :
    (path.join other).IsSpelled := by
  intro name member
  rw [FilePath.join] at member
  split at member
  · exact spelledOther name member
  · rcases List.mem_append.mp member with member | member
    · exact spelled name member
    · exact spelledOther name member

theorem IsSpelled.child (spelled : path.IsSpelled) (name : String) :
    (path.child name).IsSpelled :=
  spelled.join (isSpelled_ofText name)

theorem IsSpelled.foldl_child (spelled : path.IsSpelled) (names : List String) :
    (names.foldl FilePath.child path).IsSpelled := by
  induction names generalizing path with
  | nil => exact spelled
  | cons name names induction => exact induction (spelled.child name)

theorem isEntryName_of_mem_climb {reached names : List String}
    (entries : ∀ name ∈ reached, IsEntryName name)
    (spelled : ∀ name ∈ names, IsSpelledName name) :
    ∀ name ∈ climb reached names, IsEntryName name := by
  induction names generalizing reached with
  | nil => exact entries
  | cons first rest induction =>
      have spelledRest := fun name member => spelled name (List.mem_cons_of_mem first member)
      rw [climb]
      split
      · exact induction (fun name member => entries name (List.dropLast_subset _ member))
          spelledRest
      · next notAbove =>
        refine induction (fun name member => ?_) spelledRest
        rcases List.mem_append.mp member with member | member
        · exact entries name member
        · obtain ⟨named, whole⟩ := spelled first (List.mem_cons_self ..)
          exact List.mem_singleton.mp member ▸ ⟨named, notAbove, whole⟩

theorem IsSpelled.isCanonical_resolve (spelled : path.IsSpelled) (canonical : current.IsCanonical) :
    (current.resolve path).IsCanonical where
  absolute := rfl
  names := isEntryName_of_mem_climb (by simp) (canonical.isSpelled.join spelled)

end FilePath

/-! ## Paths that a search looks at -/

namespace FileModules

open FilePath

variable {requester : String} {directory : FilePath}

theorem isSpelled_of_directoryOf? (isDirectory : directoryOf? requester = .ok (some directory)) :
    directory.IsSpelled := by
  rw [directoryOf?] at isDirectory
  split at isDirectory
  · cases isDirectory
  · cases isDirectory
  · rw [Uri.toPath] at isDirectory
    split at isDirectory
    · cases isDirectory
    · split at isDirectory
      · cases isDirectory
        exact (isSpelled_ofText _).parent
      · cases isDirectory

theorem isSpelled_climb (spelled : directory.IsSpelled) (count : Nat) :
    (climb directory count).IsSpelled := by
  induction count generalizing directory with
  | zero => exact spelled
  | succ count induction => exact induction spelled.parent

theorem isSpelled_of_mem_candidates {base place : FilePath} {parts : List String}
    (spelled : base.IsSpelled) (member : place ∈ candidates base parts) : place.IsSpelled := by
  have target := spelled.foldl_child parts
  simp only [candidates, List.mem_cons, List.not_mem_nil, or_false] at member
  rcases member with rfl | rfl
  · exact target.parent.child _
  · exact target.child _

section

variable {modules : FileModules} {path : ImportPath}
variable (spelled : ∀ directory ∈ modules.packagePaths, directory.IsSpelled)
include spelled

theorem isSpelled_of_mem_places {home : Option FilePath}
    (isHome : directoryOf? requester = .ok home) {place : FilePath}
    (isPlace : place ∈ (modules.bases home path).flatMap fun base => candidates base path.parts) :
    place.IsSpelled := by
  rcases List.mem_flatMap.mp isPlace with ⟨base, isBase, isIn⟩
  have spelledHome : ∀ directory ∈ home.toList, directory.IsSpelled := by
    intro directory member
    rw [Option.mem_toList] at member
    cases member
    exact isSpelled_of_directoryOf? isHome
  have spelledBase : base.IsSpelled := by
    rw [bases] at isBase
    split at isBase
    · rcases List.mem_map.mp isBase with ⟨directory, isHomeOf, rfl⟩
      exact isSpelled_climb (spelledHome directory isHomeOf) _
    · rcases List.mem_append.mp (List.mem_eraseDups.mp isBase) with isHomeOf | isPackagePath
      · exact spelledHome base isHomeOf
      · exact spelled base isPackagePath
  exact isSpelled_of_mem_candidates spelledBase isIn

theorem exists_place_of_find {found : ModuleSource}
    (isFound : modules.find requester path = .ok (.found found)) :
    ∃ place, place.IsSpelled ∧ modules.tree.isFile modules.current place = .ok true ∧
      found = source modules.current place := by
  rw [find] at isFound
  split at isFound
  · cases isFound
  · next home isHome =>
    dsimp only at isFound
    split at isFound
    · cases isFound
    · next place first =>
      cases isFound
      obtain ⟨isPlace, isFile⟩ := mem_of_findM?_eq_some first
      exact ⟨place, isSpelled_of_mem_places spelled isHome isPlace, isFile, rfl⟩
    · cases isFound

theorem exists_places_of_missing {missing : MissingModule}
    (isMissing : modules.find requester path = .ok (.missing missing)) :
    ∃ places : List FilePath, (∀ place ∈ places, place.IsSpelled ∧
        modules.tree.isFile modules.current place = .ok false) ∧
      missing.looked = places.map FilePath.text := by
  rw [find] at isMissing
  split at isMissing
  · cases isMissing
  · next home isHome =>
    dsimp only at isMissing
    split at isMissing
    · cases isMissing
    · cases isMissing
    · next nowhere =>
      cases isMissing
      exact ⟨_, fun place isPlace => ⟨isSpelled_of_mem_places spelled isHome isPlace,
        findM?_eq_none_iff.mp nowhere place isPlace⟩, rfl⟩

end

end FileModules

end ServiceModules
