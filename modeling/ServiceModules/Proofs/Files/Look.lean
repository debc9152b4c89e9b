import ServiceModules.Files.Tree

/-!
Looks at paths. A look comes to what stands at the path, to nothing, or it is refused: in a place
without access, or because a name or the whole path is too long. A search that looks at one place
after the other ends at the first place where something is, or where the look is refused.
-/

namespace ServiceModules

namespace FileTree

variable {tree : FileTree} {current path : FilePath}

theorem look_of_fits (fits : path.isTooLong = false) :
    tree.look current path = tree.find current path := by
  rw [look, fits, if_neg Bool.false_ne_true]

theorem find_of_look {entry : FileEntry} (seen : tree.look current path = .ok entry) :
    tree.find current path = .ok entry := by
  rw [look] at seen
  split at seen
  · cases seen
  · exact seen

theorem read_of_look {content : Bytes} (unlocked : tree.locked = [])
    (noNull : path.hasNull = false) (seen : tree.look current path = .ok (.file content)) :
    tree.read current path = .ok content := by
  rw [look] at seen
  split at seen
  · cases seen
  · next fits =>
    rw [find] at seen
    rw [read, noNull, reach, if_neg Bool.false_ne_true, if_neg fits]
    split at seen
    · cases seen
    · rw [unlocked, if_neg List.not_mem_nil]
      split at seen
      · cases seen
      · next stands =>
        cases seen
        rw [stands]

/-! ## Name by name -/

variable {place names next reached : List String} {name : String} {problem : FileProblem}

theorem walk_cons (tree : FileTree) (place : List String) (name : String) (names : List String) :
    tree.walk place (name :: names) =
      (tree.walk place [name]).bind fun next => tree.walk next names := by
  rw [walk, walk]
  cases tree.entry? place with
  | none => rfl
  | some entry =>
      cases entry with
      | file content => rfl
      | directory =>
          dsimp only
          repeat' split
          all_goals rfl

theorem walk_singleton_eq_error (failed : tree.walk place [name] = .error problem) :
    problem.isAbsence = true ∨ problem = .forbidden ∨ problem = .nameTooLong := by
  rw [walk] at failed
  split at failed
  · cases failed
    exact .inl rfl
  · cases failed
    exact .inl rfl
  · split at failed
    · cases failed
      exact .inr (.inl rfl)
    · split at failed
      · cases failed
      · split at failed
        · cases failed
          exact .inr (.inr rfl)
        · split at failed
          · cases failed
            exact .inl rfl
          · cases failed

theorem walk_singleton_cases (walked : tree.walk place [name] = .ok next) :
    name = ".." ∧ next = place.dropLast ∨
      name ≠ ".." ∧ name.utf8ByteSize ≤ longestName ∧ next = place ++ [name] := by
  rw [walk] at walked
  split at walked
  · cases walked
  · cases walked
  · split at walked
    · cases walked
    · split at walked
      · next above =>
        cases walked
        exact .inl ⟨above, rfl⟩
      · next below =>
        split at walked
        · cases walked
        · next short =>
          split at walked
          · cases walked
          · cases walked
            exact .inr ⟨below, Nat.not_lt.mp short, rfl⟩

theorem exists_of_walk_cons_eq_ok (walked : tree.walk place (name :: names) = .ok reached) :
    ∃ next, tree.walk place [name] = .ok next ∧ tree.walk next names = .ok reached := by
  rw [walk_cons] at walked
  cases first : tree.walk place [name] with
  | error problem =>
      rw [first] at walked
      cases walked
  | ok next =>
      rw [first] at walked
      exact ⟨next, rfl, walked⟩

theorem walk_eq_error (failed : tree.walk place names = .error problem) :
    problem.isAbsence = true ∨ problem = .forbidden ∨ problem = .nameTooLong := by
  induction names generalizing place with
  | nil => cases failed
  | cons name names induction =>
      rw [walk_cons] at failed
      cases first : tree.walk place [name] with
      | error other =>
          rw [first] at failed
          cases failed
          exact walk_singleton_eq_error first
      | ok next =>
          rw [first] at failed
          exact induction failed

theorem walk_ne_ok (long : longestName < name.utf8ByteSize) (isIn : name ∈ names) :
    tree.walk place names ≠ .ok reached := by
  induction names generalizing place with
  | nil => cases isIn
  | cons first names induction =>
      intro walked
      rcases exists_of_walk_cons_eq_ok walked with ⟨next, stepped, walkedOn⟩
      rcases List.mem_cons.mp isIn with rfl | isIn
      · rcases walk_singleton_cases stepped with ⟨rfl, _⟩ | ⟨_, short, _⟩
        · exact absurd long (by decide)
        · exact absurd long (Nat.not_lt.mpr short)
      · exact induction isIn walkedOn

/-! ## Looks -/

theorem look_ne_ok {entry : FileEntry} (long : longestName < name.utf8ByteSize)
    (isIn : name ∈ path.parts) : tree.look current path ≠ .ok entry := by
  intro seen
  have isAlsoIn : name ∈ (current.join path).parts := by
    rw [FilePath.join]
    split
    · exact isIn
    · exact List.mem_append_right _ isIn
  have found := find_of_look seen
  rw [find] at found
  split at found
  · cases found
  · next walked => exact walk_ne_ok long isAlsoIn walked

structure Refuses (tree : FileTree) (current path : FilePath) (problem : FileProblem) : Prop where
  noNull : path.hasNull = false
  look : tree.look current path = .error problem
  cause : problem = .forbidden ∨ problem = .nameTooLong

theorem Refuses.isAbsence (refused : tree.Refuses current path problem) :
    problem.isAbsence = false := by
  rcases refused.cause with rfl | rfl <;> rfl

theorem refuses_of_look (noNull : path.hasNull = false)
    (failed : tree.look current path = .error problem) (noAbsence : problem.isAbsence = false) :
    tree.Refuses current path problem where
  noNull := noNull
  look := failed
  cause := by
    rw [FileTree.look] at failed
    split at failed
    · cases failed
      exact .inr rfl
    · rw [find] at failed
      split at failed
      · next walked =>
        cases failed
        rcases walk_eq_error walked with absence | cause
        · cases noAbsence.symm.trans absence
        · exact cause
      · split at failed
        · cases failed
          cases noAbsence
        · cases failed

/-! ## Answers -/

variable {isKind : FileEntry → Bool}

theorem answers_eq_true_iff :
    tree.answers isKind current path = .ok true ↔
      path.hasNull = false ∧ ∃ entry, tree.look current path = .ok entry ∧ isKind entry = true := by
  rw [answers]
  split
  · next null => simp [null]
  · next entry noNull seen => simp [noNull, seen]
  · next problem noNull failed => split <;> simp [failed]

theorem answers_eq_error_iff {fault : FileFault} :
    tree.answers isKind current path = .error fault ↔
      ∃ problem, tree.Refuses current path problem ∧ fault = .refused problem path := by
  rw [answers]
  constructor
  · intro failed
    split at failed
    · cases failed
    · cases failed
    · next problem noNull isProblem =>
      split at failed
      · cases failed
      · next noAbsence =>
        rw [Bool.not_eq_true] at noAbsence
        cases failed
        exact ⟨problem, refuses_of_look noNull isProblem noAbsence, rfl⟩
  · rintro ⟨problem, refused, rfl⟩
    rw [refused.noNull, refused.look]
    dsimp only
    rw [refused.isAbsence, if_neg Bool.false_ne_true]

theorem isFile_eq_true_iff :
    tree.isFile current path = .ok true ↔
      path.hasNull = false ∧ ∃ content, tree.look current path = .ok (.file content) := by
  rw [isFile, answers_eq_true_iff]
  constructor
  · rintro ⟨noNull, entry, seen, kind⟩
    cases entry with
    | directory => cases kind
    | file content => exact ⟨noNull, content, seen⟩
  · rintro ⟨noNull, content, seen⟩
    exact ⟨noNull, _, seen, rfl⟩

end FileTree

/-! ## One place after the other -/

/-- An answer that ends a search: there is something, or the look was refused. -/
def endsSearch : Except FileFault Bool → Bool
  | .ok false => false
  | _ => true

theorem endsSearch_eq_false_iff {answer : Except FileFault Bool} :
    endsSearch answer = false ↔ answer = .ok false := by
  rcases answer with fault | _ | _ <;> simp [endsSearch]

section

variable {α : Type} {ask : α → Except FileFault Bool} {places : List α}

variable (ask places) in
theorem findM?_eq :
    places.findM? ask =
      match places.find? fun place => endsSearch (ask place) with
      | none => .ok none
      | some place => (ask place).map fun _ => some place := by
  induction places with
  | nil => rfl
  | cons place places induction =>
      rw [List.findM?, List.find?]
      rcases answer : ask place with fault | _ | _
      · simp [answer, endsSearch, bind, Except.bind, Except.map]
      · simpa [answer, endsSearch, bind, Except.bind] using induction
      · simp [answer, endsSearch, bind, Except.bind, Except.map, pure, Except.pure]

theorem findM?_eq_none_iff :
    places.findM? ask = .ok none ↔ ∀ place ∈ places, ask place = .ok false := by
  rw [findM?_eq]
  constructor
  · intro searched
    split at searched
    · next nothing =>
      intro place isIn
      have goesOn := List.find?_eq_none.mp nothing place isIn
      exact endsSearch_eq_false_iff.mp (Bool.not_eq_true _ ▸ goesOn)
    · next place first =>
      cases answer : ask place <;> rw [answer] at searched <;> cases searched
  · intro nowhere
    rw [List.find?_eq_none.mpr fun place isIn => by simp [nowhere place isIn, endsSearch]]

theorem findM?_eq_of_find? {place : α}
    (first : places.find? (fun place => endsSearch (ask place)) = some place) :
    places.findM? ask = (ask place).map fun _ => some place := by
  rw [findM?_eq, first]

theorem findM?_append_of_ne_none (ended : places.findM? ask ≠ .ok none) (more : List α) :
    (places ++ more).findM? ask = places.findM? ask := by
  rw [findM?_eq] at ended
  split at ended
  · exact absurd rfl ended
  · next place first =>
    have firstOfAll :
        (places ++ more).find? (fun place => endsSearch (ask place)) = some place := by
      rw [List.find?_append, first, Option.some_or]
    rw [findM?_eq_of_find? firstOfAll, findM?_eq_of_find? first]

theorem mem_of_findM?_eq_some {place : α} (found : places.findM? ask = .ok (some place)) :
    place ∈ places ∧ ask place = .ok true := by
  rw [findM?_eq] at found
  split at found
  · cases found
  · next first isFirst =>
    have ends : endsSearch (ask first) = true :=
      List.find?_some (p := fun place => endsSearch (ask place)) isFirst
    rcases answer : ask first with fault | _ | _
    · rw [answer] at found
      cases found
    · rw [answer] at ends
      cases ends
    · rw [answer] at found
      cases found
      exact ⟨List.mem_of_find?_eq_some isFirst, answer⟩

end

end ServiceModules
