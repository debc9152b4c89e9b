import ServiceModules.Proofs.Files.Resolve
import ServiceModules.Proofs.Files.Walk
import ServiceModules.Suggestion.Nearby

/-!
Listing what is near a missing module. A search that finds nothing has looked at all its places, and
whoever may look at a place may look at all the directories on the way to it. So the candidates for
suggestions can be listed wherever a search in files comes to its end.
-/

namespace ServiceModules

namespace FileTree

variable {tree : FileTree} {current : FilePath} {root : PathRoot} {above parts : List String}

theorem walk_eq_error_of_append {place names more : List String} {problem : FileProblem}
    (failed : tree.walk place names = .error problem) :
    tree.walk place (names ++ more) = .error problem := by
  rw [walk_append, failed]
  rfl

theorem Refuses.exists_of_prefix {problem : FileProblem} (isAbove : above <+: parts)
    (noNull : FilePath.hasNull ⟨root, parts⟩ = false)
    (refused : tree.Refuses current ⟨root, above⟩ problem) :
    ∃ problem, tree.Refuses current ⟨root, parts⟩ problem := by
  cases fits : FilePath.isTooLong ⟨root, parts⟩ with
  | true =>
      exact ⟨.nameTooLong, noNull, by rw [FileTree.look, fits, if_pos rfl], .inr rfl⟩
  | false =>
      refine ⟨problem, noNull, ?_, refused.cause⟩
      have seen := refused.look
      rw [look_of_fits (FilePath.isTooLong_of_prefix isAbove fits), find] at seen
      rw [look_of_fits fits, find]
      have joined : ∃ more, (current.join ⟨root, parts⟩).parts =
          (current.join ⟨root, above⟩).parts ++ more := by
        rcases isAbove with ⟨more, rfl⟩
        refine ⟨more, ?_⟩
        cases root <;> simp [FilePath.join, FilePath.isAbsolute]
      rcases joined with ⟨more, whole⟩
      split at seen
      · next walked =>
        cases seen
        rw [whole, walk_eq_error_of_append walked]
      · split at seen
        · cases seen
          rcases refused.cause with impossible | impossible <;> cases impossible
        · cases seen

end FileTree

namespace Suggestion

variable {tree : FileTree} {current path : FilePath}

theorem exists_nearestDirectory (noNull : path.hasNull = false)
    (looked : tree.isFile current path = .ok false) :
    ∃ nearest, nearestDirectory? tree current path = .ok nearest := by
  cases listed : nearestDirectory? tree current path with
  | ok nearest => exact ⟨nearest, rfl⟩
  | error fault =>
      rw [nearestDirectory?, findM?_eq] at listed
      split at listed
      · cases listed
      · next above first =>
        cases answer : tree.isDirectory current above with
        | ok isDirectory =>
            rw [answer] at listed
            cases listed
        | error problem =>
            obtain ⟨problem, refused, _⟩ := FileTree.answers_eq_error_iff.mp answer
            obtain ⟨climbed, _, rfl⟩ := List.mem_map.mp (List.mem_of_find?_eq_some first)
            obtain ⟨other, alsoRefused⟩ :=
              refused.exists_of_prefix (List.take_prefix _ path.parts) noNull
            have failed := (@FileTree.answers_eq_error_iff _ _ _ FileEntry.isFile _).mpr
              ⟨other, alsoRefused, rfl⟩
            rw [FileTree.isFile, failed] at looked
            cases looked

theorem exists_mapM {α β : Type} {list : α → Except FileFault β} {items : List α}
    (each : ∀ item ∈ items, ∃ made, list item = .ok made) :
    ∃ made, items.mapM list = .ok made := by
  induction items with
  | nil => exact ⟨[], rfl⟩
  | cons item items induction =>
      obtain ⟨first, isFirst⟩ := each item (List.mem_cons_self ..)
      obtain ⟨rest, isRest⟩ := induction fun other isIn => each other (List.mem_cons_of_mem _ isIn)
      exact ⟨first :: rest, by simp [isFirst, isRest, bind, Except.bind, pure, Except.pure]⟩

/-- Wherever a module is missing in files, there is a list of candidates. -/
theorem exists_nearby_of_missing {modules : FileModules} {requester : String} {path : ImportPath}
    {missing : MissingModule}
    (spelled : ∀ directory ∈ modules.packagePaths, directory.IsSpelled)
    (isMissing : modules.find requester path = .ok (.missing missing))
    (noNull : ∀ place ∈ missing.looked, '\x00' ∉ place.toList) (includeCurrent : Bool) :
    ∃ names, nearby modules.tree modules.current includeCurrent missing.looked = .ok names := by
  obtain ⟨places, nowhere, looked⟩ := FileModules.exists_places_of_missing spelled isMissing
  have nearest : ∃ nearest, missing.looked.mapM (fun place =>
      nearestDirectory? modules.tree modules.current (.ofText place)) = .ok nearest := by
    apply exists_mapM
    intro text isLooked
    have noNullText := FilePath.hasNull_ofText (noNull text isLooked)
    rw [looked] at isLooked
    obtain ⟨place, isPlace, rfl⟩ := List.mem_map.mp isLooked
    obtain ⟨spelledPlace, notFile⟩ := nowhere place isPlace
    rw [spelledPlace.ofText_text] at noNullText ⊢
    exact exists_nearestDirectory noNullText notFile
  obtain ⟨nearest, listed⟩ := nearest
  exact ⟨_, by rw [nearby, listed]; rfl⟩

end Suggestion

end ServiceModules
