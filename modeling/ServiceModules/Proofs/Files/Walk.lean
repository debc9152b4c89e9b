import ServiceModules.Proofs.Files.Write

/-!
Walking and resolving. A walk goes over double dots one by one, and resolving a path takes them out
beforehand. Where a walk comes to anything at all, both come to the same place.
-/

namespace ServiceModules

namespace FileTree

variable {tree : FileTree} {place names more reached : List String}

theorem walk_append (tree : FileTree) (place names more : List String) :
    tree.walk place (names ++ more) =
      (tree.walk place names).bind fun reached => tree.walk reached more := by
  induction names generalizing place with
  | nil => rfl
  | cons name names induction =>
      rw [List.cons_append, tree.walk_cons place name (names ++ more),
        tree.walk_cons place name names]
      cases tree.walk place [name] with
      | error problem => rfl
      | ok next => exact induction next

theorem walk_dropLast (down : ∀ name ∈ names, name ≠ "..")
    (walked : tree.walk [] names = .ok names) :
    tree.walk [] names.dropLast = .ok names.dropLast := by
  by_cases empty : names = []
  · rw [empty]
    rfl
  · have whole := List.dropLast_concat_getLast empty
    rw [← whole, walk_append] at walked
    cases above : tree.walk [] names.dropLast with
    | error problem =>
        rw [above] at walked
        cases walked
    | ok reached =>
        have isAbove : ∀ name ∈ names.dropLast, name ≠ ".." :=
          fun name isIn => down name ((List.dropLast_sublist names).subset isIn)
        rw [eq_of_walk_eq_ok isAbove above, List.nil_append]

/-- From a place that is come to without double dots, a walk goes where the path climbs to, and the
place that it comes to is come to without double dots again. -/
theorem walk_eq_climb (down : ∀ name ∈ place, name ≠ "..") (there : tree.walk [] place = .ok place)
    (walked : tree.walk place names = .ok reached) :
    reached = FilePath.climb place names ∧ tree.walk [] reached = .ok reached := by
  induction names generalizing place with
  | nil =>
      cases walked
      exact ⟨rfl, there⟩
  | cons name names induction =>
      rcases exists_of_walk_cons_eq_ok walked with ⟨next, stepped, walkedOn⟩
      rw [FilePath.climb]
      rcases walk_singleton_cases stepped with ⟨above, rfl⟩ | ⟨below, _, rfl⟩
      · rw [if_pos above]
        -- Two dots: the directory above was come to on the way down.
        apply induction _ (walk_dropLast down there) walkedOn
        exact fun other isIn => down other ((List.dropLast_sublist place).subset isIn)
      · rw [if_neg below]
        apply induction _ _ walkedOn
        · intro other isIn
          rcases List.mem_append.mp isIn with isIn | isLast
          · exact down other isIn
          · exact List.mem_singleton.mp isLast ▸ below
        · rw [walk_append, there]
          exact stepped

theorem find_resolve {current path : FilePath} {entry : FileEntry}
    (found : tree.find current path = .ok entry) :
    tree.find current (current.resolve path) = .ok entry := by
  have absolute : current.join (current.resolve path) = current.resolve path := rfl
  rw [find] at found ⊢
  split at found
  · cases found
  · next reached walked =>
    have nowhere : ∀ name ∈ ([] : List String), name ≠ ".." := by simp
    obtain ⟨climbed, again⟩ := walk_eq_climb nowhere rfl walked
    rw [absolute, FilePath.resolve, ← climbed, again]
    exact found

end FileTree

end ServiceModules
