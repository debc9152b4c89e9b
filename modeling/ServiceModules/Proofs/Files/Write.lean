import Mathlib.Data.List.Induction
import ServiceModules.Files.Tree
import ServiceModules.Proofs.Files.Canonical
import ServiceModules.Proofs.Files.Look
import ServiceModules.Proofs.Upsert

/-!
Writing files. In a tree without locked places, in which directories stand above everything, a
canonical path leads to what stands there, and a file that is written is put there together with the
directories above it. All else stays as it is.
-/

namespace ServiceModules

structure FilePath.IsUsable (path : FilePath) : Prop where
  noNull : path.hasNull = false
  fits : path.isTooLong = false
  short : ∀ name ∈ path.parts, name.utf8ByteSize ≤ FileTree.longestName

theorem FilePath.IsUsable.of_below {path : FilePath} {names : List String}
    (usable : (path.below names).IsUsable) : path.IsUsable where
  noNull := by
    have noNull := usable.noNull
    rw [hasNull, below, List.any_append, Bool.or_eq_false_iff] at noNull
    exact noNull.1
  fits := isTooLong_of_prefix (List.prefix_append ..) usable.fits
  short := fun name member => usable.short name (List.mem_append_left _ member)

namespace FileTree

/-- Directories stand above everything, and all that stands in them can be come to. -/
structure IsClosed (tree : FileTree) : Prop where
  above : ∀ place name, tree.entry? (place ++ [name]) ≠ none →
    tree.entry? place = some .directory
  short : ∀ place, tree.entry? place ≠ none →
    ∀ name ∈ place, name.utf8ByteSize ≤ longestName
  unlocked : tree.locked = []

variable {tree : FileTree} {place names : List String} {name : String} {content : Bytes}

theorem entry?_put (tree : FileTree) (place : List String) (name : String) (entry : FileEntry)
    (other : List String) :
    FileTree.entry? (tree.put (place ++ [name]) entry) other =
      if other = place ++ [name] then some entry else tree.entry? other := by
  have nonempty : place ++ [name] ≠ [] := List.concat_ne_nil name place
  unfold entry?
  by_cases top : other = []
  · rw [if_pos top, if_pos top, if_neg (top ▸ nonempty.symm)]
  · rw [if_neg top, if_neg top]
    exact lookup_replaced tree.entries (place ++ [name]) entry other

theorem IsClosed.directory_of_prefix (closed : tree.IsClosed) {above : List String}
    (isAbove : above <+: place) (different : above ≠ place) (stands : tree.entry? place ≠ none) :
    tree.entry? above = some .directory := by
  rcases isAbove with ⟨below, rfl⟩
  induction below using List.reverseRecOn with
  | nil => exact absurd (List.append_nil _).symm different
  | append_singleton below name induction =>
      rw [← List.append_assoc] at stands
      have parent := closed.above _ _ stands
      by_cases empty : below = []
      · rwa [empty, List.append_nil] at parent
      · refine induction (fun same => empty (List.self_eq_append_right.mp same)) ?_
        rw [parent]
        exact Option.some_ne_none _

theorem IsClosed.put (closed : tree.IsClosed) (above : tree.entry? place = some .directory)
    (leaf : tree.entry? (place ++ [name]) ≠ some .directory)
    (short : name.utf8ByteSize ≤ longestName) (entry : FileEntry) :
    (tree.put (place ++ [name]) entry).IsClosed where
  above := by
    intro other below stands
    rw [entry?_put] at stands ⊢
    have directory : tree.entry? other = some .directory := by
      split at stands
      · next same => rw [(List.append_inj' same rfl).1, above]
      · exact closed.above _ _ stands
    have apart : other ≠ place ++ [name] := by
      rintro rfl
      exact leaf directory
    rw [if_neg apart, directory]
  short := by
    intro other stands part member
    rw [entry?_put] at stands
    split at stands
    · next same =>
      rw [same] at member
      rcases List.mem_append.mp member with member | member
      · exact closed.short place (above ▸ Option.some_ne_none _) part member
      · exact List.mem_singleton.mp member ▸ short
    · exact closed.short other stands part member
  unlocked := closed.unlocked

theorem entry?_empty (nonempty : place ≠ []) : empty.entry? place = none := by
  unfold entry?
  rw [if_neg nonempty]
  rfl

theorem isClosed_empty : empty.IsClosed where
  above := fun place name stands => absurd (entry?_empty (List.concat_ne_nil name place)) stands
  short := by
    intro place stands name member
    exact absurd (entry?_empty (List.ne_nil_of_mem member)) stands
  unlocked := rfl

def IsClear (tree : FileTree) (place : List String) : Prop :=
  ∀ above content, above <+: place → tree.entry? above ≠ some (.file content)

theorem IsClear.of_append (clear : tree.IsClear (place ++ names)) : tree.IsClear place :=
  fun above content isAbove => clear above content (isAbove.trans (List.prefix_append ..))

/-! ## Walking down -/

theorem eq_of_walk_eq_ok (down : ∀ name ∈ names, name ≠ "..") {reached : List String}
    (walked : tree.walk place names = .ok reached) : reached = place ++ names := by
  induction names generalizing place with
  | nil =>
      rw [walk] at walked
      cases walked
      exact (List.append_nil _).symm
  | cons name names induction =>
      rcases exists_of_walk_cons_eq_ok walked with ⟨next, stepped, walkedOn⟩
      rcases walk_singleton_cases stepped with ⟨above, _⟩ | ⟨_, _, rfl⟩
      · exact absurd above (down name (List.mem_cons_self ..))
      · rw [induction (fun other member => down other (List.mem_cons_of_mem _ member)) walkedOn,
          List.append_assoc, List.singleton_append]

theorem walk_cons_of_directory (unlocked : tree.locked = [])
    (here : tree.entry? place = some .directory) (notAbove : name ≠ "..")
    (short : name.utf8ByteSize ≤ longestName) :
    tree.walk place (name :: names) =
      if (tree.entry? (place ++ [name])).isNone then .error .missing
      else tree.walk (place ++ [name]) names := by
  rw [walk, here]
  dsimp only
  rw [unlocked, if_neg List.not_mem_nil, if_neg notAbove, if_neg (Nat.not_lt.mpr short)]

theorem IsClosed.walk_eq_ok (closed : tree.IsClosed) (down : ∀ name ∈ names, name ≠ "..")
    (stands : tree.entry? (place ++ names) ≠ none) :
    tree.walk place names = .ok (place ++ names) := by
  induction names generalizing place with
  | nil => rw [walk, List.append_nil]
  | cons name names induction =>
      have next : place ++ name :: names = (place ++ [name]) ++ names := by
        rw [List.append_assoc, List.singleton_append]
      have here : tree.entry? place = some .directory := by
        refine closed.directory_of_prefix (List.prefix_append place (name :: names)) ?_ stands
        exact fun same => List.cons_ne_nil _ _ (List.self_eq_append_right.mp same)
      rw [next] at stands
      have reached : tree.entry? (place ++ [name]) ≠ none := by
        by_cases last : names = []
        · rwa [last, List.append_nil] at stands
        · rw [closed.directory_of_prefix (List.prefix_append _ names)
            (fun same => last (List.self_eq_append_right.mp same)) stands]
          exact Option.some_ne_none _
      have short := closed.short _ stands name (by simp)
      rw [walk_cons_of_directory closed.unlocked here (down name (List.mem_cons_self ..)) short,
        if_neg (by rwa [Option.isNone_iff_eq_none]),
        induction (fun other member => down other (List.mem_cons_of_mem _ member)) stands, next]

theorem IsClear.walk_eq_missing (unlocked : tree.locked = [])
    (clear : tree.IsClear (place ++ names)) (down : ∀ name ∈ names, name ≠ "..")
    (short : ∀ name ∈ names, name.utf8ByteSize ≤ longestName) (begins : tree.entry? place ≠ none)
    (nothing : tree.entry? (place ++ names) = none) :
    tree.walk place names = .error .missing := by
  induction names generalizing place with
  | nil =>
      rw [List.append_nil] at nothing
      exact absurd nothing begins
  | cons name names induction =>
      have next : place ++ name :: names = (place ++ [name]) ++ names := by
        rw [List.append_assoc, List.singleton_append]
      have here : tree.entry? place = some .directory := by
        cases entry : tree.entry? place with
        | none => exact absurd entry begins
        | some found =>
            cases found with
            | directory => rfl
            | file content => exact absurd entry (clear _ _ (List.prefix_append ..))
      rw [walk_cons_of_directory unlocked here (down name (List.mem_cons_self ..))
        (short name (List.mem_cons_self ..))]
      split
      · rfl
      · next reached =>
        rw [next] at clear nothing
        rw [Option.isNone_iff_eq_none] at reached
        exact induction clear (fun other member => down other (List.mem_cons_of_mem _ member))
          (fun other member => short other (List.mem_cons_of_mem _ member)) reached nothing

section

variable {path : FilePath} (canonical : path.IsCanonical) (current : FilePath)
include canonical

theorem IsClosed.walk_of_isCanonical (closed : tree.IsClosed)
    (stands : tree.entry? path.parts ≠ none) : tree.walk [] path.parts = .ok path.parts :=
  closed.walk_eq_ok (fun name member => (canonical.names name member).notAbove) stands

theorem IsClear.walk_of_isCanonical (unlocked : tree.locked = []) (usable : path.IsUsable)
    (clear : tree.IsClear path.parts) (nothing : tree.entry? path.parts = none) :
    tree.walk [] path.parts = .error .missing :=
  IsClear.walk_eq_missing unlocked clear
    (fun name member => (canonical.names name member).notAbove) usable.short
    (Option.some_ne_none _) nothing

theorem IsClosed.find_eq_ok_iff (closed : tree.IsClosed) {entry : FileEntry} :
    tree.find current path = .ok entry ↔ tree.entry? path.parts = some entry := by
  have down := fun name member => (canonical.names name member).notAbove
  rw [find, FilePath.join_of_isCanonical canonical]
  constructor
  · intro found
    split at found
    · cases found
    · next walked =>
      rw [eq_of_walk_eq_ok down walked, List.nil_append] at found
      split at found
      · cases found
      · next stands =>
        cases found
        exact stands
  · intro stands
    rw [closed.walk_of_isCanonical canonical (stands ▸ Option.some_ne_none _)]
    dsimp only
    rw [stands]

theorem IsClosed.look_of_entry (closed : tree.IsClosed) (usable : path.IsUsable)
    {entry : FileEntry} (stands : tree.entry? path.parts = some entry) :
    tree.look current path = .ok entry := by
  rw [look_of_fits usable.fits, closed.find_eq_ok_iff canonical, stands]

theorem IsClear.look_eq_missing (unlocked : tree.locked = []) (usable : path.IsUsable)
    (clear : tree.IsClear path.parts) (nothing : tree.entry? path.parts = none) :
    tree.look current path = .error .missing := by
  rw [look_of_fits usable.fits, find, FilePath.join_of_isCanonical canonical,
    clear.walk_of_isCanonical canonical unlocked usable nothing]

end

/-! ## Directories -/

/-- This tree has directories down to a place, and else what the other tree has. -/
structure ExtendsTo (made tree : FileTree) (place : List String) : Prop where
  closed : made.IsClosed
  entries : ∀ other,
    made.entry? other = if other <+: place then some .directory else tree.entry? other

theorem IsClosed.extendsTo_self (closed : tree.IsClosed)
    (stands : tree.entry? place = some .directory) : tree.ExtendsTo tree place where
  closed := closed
  entries := by
    intro other
    split
    · next isAbove =>
      by_cases same : other = place
      · rw [same, stands]
      · exact closed.directory_of_prefix isAbove same (stands ▸ Option.some_ne_none _)
    · rfl

variable {made : FileTree}

theorem ExtendsTo.directory (extended : made.ExtendsTo tree place) :
    made.entry? place = some .directory := by
  rw [extended.entries, if_pos (List.prefix_refl place)]

theorem ExtendsTo.entry?_child (extended : made.ExtendsTo tree place) (name : String) :
    made.entry? (place ++ [name]) = tree.entry? (place ++ [name]) := by
  have longer : ¬ place ++ [name] <+: place := by
    intro isPrefix
    have length := isPrefix.length_le
    rw [List.length_append, List.length_singleton] at length
    omega
  rw [extended.entries, if_neg longer]

theorem ExtendsTo.isClear_child (extended : made.ExtendsTo tree place)
    (nothing : made.entry? (place ++ [name]) = none) : made.IsClear (place ++ [name]) := by
  intro above content isAbove
  rcases List.prefix_concat_iff.mp isAbove with rfl | isAbove
  · rw [nothing]
    exact (Option.some_ne_none _).symm
  · rw [extended.entries, if_pos isAbove]
    exact fun same => FileEntry.noConfusion (Option.some.inj same)

theorem ExtendsTo.put (extended : made.ExtendsTo tree place)
    (nothing : tree.entry? (place ++ [name]) = none)
    (short : name.utf8ByteSize ≤ longestName) :
    (made.put (place ++ [name]) .directory).ExtendsTo tree (place ++ [name]) where
  closed := by
    refine extended.closed.put extended.directory ?_ short _
    rw [extended.entry?_child, nothing]
    exact (Option.some_ne_none _).symm
  entries := by
    intro other
    rw [entry?_put, extended.entries]
    simp only [List.prefix_concat_iff]
    by_cases same : other = place ++ [name] <;> simp [same]

variable {directory : FilePath} (current : FilePath)

theorem provideDirectory_of_directory {path : FilePath} (noNull : path.hasNull = false)
    (seen : tree.look current path = .ok .directory) :
    tree.provideDirectory current path = .ok tree := by
  have isDirectory : tree.isDirectory current path = .ok true :=
    answers_eq_true_iff.mpr ⟨noNull, _, seen, rfl⟩
  rw [provideDirectory, makeDirectory, isDirectory]
  simp only [seen]

section

variable (canonical : directory.IsCanonical) (entryName : FilePath.IsEntryName name)
variable (usable : (directory.below [name]).IsUsable)
include canonical entryName usable

variable (clear : tree.IsClear (directory.parts ++ [name]))
variable (nothing : tree.entry? (directory.parts ++ [name]) = none)
include clear nothing

theorem IsClosed.provideDirectory_eq_put (closed : tree.IsClosed)
    (stands : tree.entry? directory.parts = some .directory) :
    tree.provideDirectory current (directory.below [name]) =
      .ok (tree.put (directory.parts ++ [name]) .directory) := by
  have missing := clear.look_eq_missing (canonical.child entryName) current closed.unlocked usable
    nothing
  have walked := closed.walk_of_isCanonical canonical (stands ▸ Option.some_ne_none _)
  rw [provideDirectory, makeDirectory, missing, FilePath.parent_below_singleton,
    FilePath.join_of_isCanonical canonical, walked, FilePath.name_below_singleton]

theorem IsClear.provideDirectory_eq_missing (unlocked : tree.locked = [])
    (unreached : tree.entry? directory.parts = none) :
    tree.provideDirectory current (directory.below [name]) = .error .missing := by
  have missing := clear.look_eq_missing (canonical.child entryName) current unlocked usable nothing
  have walked := (clear.of_append).walk_of_isCanonical canonical unlocked usable.of_below unreached
  have isDirectory : tree.isDirectory current (directory.below [name]) = .ok false := by
    rw [isDirectory, answers, usable.noNull, missing]
    rfl
  rw [provideDirectory, makeDirectory, missing, FilePath.parent_below_singleton,
    FilePath.join_of_isCanonical canonical, walked, isDirectory]

end

/-- All directories on a clear way are provided. The induction is on the names from the last one
on, since only where a directory is missing those above it are provided first. -/
theorem IsClosed.provideNames (closed : tree.IsClosed) {names : List String}
    (entryNames : ∀ name ∈ names, FilePath.IsEntryName name)
    (usable : FilePath.IsUsable ⟨.slash, names.reverse⟩) (clear : tree.IsClear names.reverse) :
    ∃ made, tree.provideNames current .slash names = (none, made) ∧
      made.ExtendsTo tree names.reverse := by
  -- The last name comes first, so that the induction goes up to the directory above.
  induction names with
  | nil => exact ⟨tree, rfl, closed.extendsTo_self rfl⟩
  | cons name above induction =>
      have aboveNames := fun other member => entryNames other (List.mem_cons_of_mem name member)
      have canonical : FilePath.IsCanonical ⟨.slash, above.reverse⟩ :=
        ⟨rfl, fun other member => aboveNames other (List.mem_reverse.mp member)⟩
      have entryName := entryNames name (List.mem_cons_self ..)
      have path : (⟨.slash, (name :: above).reverse⟩ : FilePath) =
          FilePath.below ⟨.slash, above.reverse⟩ [name] := by
        rw [FilePath.below, List.reverse_cons]
      rw [FileTree.provideNames, path]
      rw [path] at usable
      rw [List.reverse_cons] at clear ⊢
      have short := usable.short name (List.mem_append_right _ (List.mem_cons_self ..))
      cases stands : tree.entry? (above.reverse ++ [name]) with
      | some entry =>
          cases entry with
          | file content => exact absurd stands (clear _ _ (List.prefix_refl _))
          | directory =>
              have seen := closed.look_of_entry (canonical.child entryName) current usable stands
              rw [provideDirectory_of_directory current usable.noNull seen]
              exact ⟨tree, rfl, closed.extendsTo_self stands⟩
      | none =>
          cases reached : tree.entry? above.reverse with
          | some entry =>
              cases entry with
              | file content => exact absurd reached (clear _ _ (List.prefix_append ..))
              | directory =>
                  rw [closed.provideDirectory_eq_put current canonical entryName usable clear stands
                    reached]
                  exact ⟨_, rfl, (closed.extendsTo_self reached).put stands short⟩
          | none =>
              rcases induction aboveNames usable.of_below clear.of_append with
                ⟨made, provided, extended⟩
              have madeNothing := (extended.entry?_child name).trans stands
              rw [clear.provideDirectory_eq_missing current canonical entryName usable stands
                closed.unlocked reached, provided]
              dsimp only
              rw [extended.closed.provideDirectory_eq_put current canonical entryName usable
                (extended.isClear_child madeNothing) madeNothing extended.directory]
              exact ⟨_, rfl, extended.put stands short⟩

theorem IsClosed.provide (closed : tree.IsClosed) (canonical : directory.IsCanonical)
    (clear : tree.IsClear directory.parts) (usable : directory.IsUsable) :
    ∃ made, tree.provide current directory = (none, made) ∧
      made.ExtendsTo tree directory.parts := by
  rcases directory with ⟨root, parts⟩
  cases canonical.absolute
  rw [FileTree.provide, usable.noNull, if_neg Bool.false_ne_true]
  have entryNames := fun name member => canonical.names name (List.mem_reverse.mp member)
  have provided := closed.provideNames current entryNames (by rwa [List.reverse_reverse])
    (by rwa [List.reverse_reverse])
  rwa [List.reverse_reverse] at provided

/-! ## Files -/

variable (canonical : directory.IsCanonical) (entryName : FilePath.IsEntryName name)
variable (usable : (directory.below [name]).IsUsable)
include canonical entryName usable

theorem ExtendsTo.store (extended : made.ExtendsTo tree directory.parts)
    (leaf : tree.entry? (directory.parts ++ [name]) ≠ some .directory) (content : Bytes) :
    made.store current (directory.below [name]) content =
      (none, made.put (directory.parts ++ [name]) (.file content)) := by
  have isCanonical := canonical.child entryName
  have walked := extended.closed.walk_of_isCanonical canonical
    (extended.directory ▸ Option.some_ne_none _)
  rw [FileTree.store, usable.noNull, if_neg Bool.false_ne_true, FilePath.parent_below_singleton,
    FilePath.join_of_isCanonical canonical, walked, FilePath.name_below_singleton]
  cases stands : made.entry? (directory.parts ++ [name]) with
  | none =>
      have clear := extended.isClear_child stands
      rw [clear.look_eq_missing isCanonical current extended.closed.unlocked usable stands]
  | some entry =>
      cases entry with
      | directory => exact absurd ((extended.entry?_child name).symm.trans stands) leaf
      | file old =>
          rw [extended.closed.look_of_entry isCanonical current usable stands]
          dsimp only
          rw [extended.closed.unlocked, if_neg List.not_mem_nil]

/-- A file is written with the directories above it, and all else stays. -/
theorem IsClosed.write (closed : tree.IsClosed) (clear : tree.IsClear directory.parts)
    (leaf : tree.entry? (directory.parts ++ [name]) ≠ some .directory) (content : Bytes) :
    ∃ made, tree.write current (directory.below [name]) content = (none, made) ∧
      made.IsClosed ∧
      ∀ other, made.entry? other =
        if other = directory.parts ++ [name] then some (.file content)
        else if other <+: directory.parts then some .directory
        else tree.entry? other := by
  have short := usable.short name (List.mem_append_right _ (List.mem_cons_self ..))
  rcases closed.provide current canonical clear usable.of_below with ⟨made, provided, extended⟩
  rw [FileTree.write, FilePath.parent_below_singleton, provided]
  dsimp only
  rw [extended.store current canonical entryName usable leaf]
  refine ⟨_, rfl, ?_, fun other => ?_⟩
  · exact extended.closed.put extended.directory ((extended.entry?_child name).symm ▸ leaf) short _
  · rw [entry?_put, extended.entries]

end FileTree

end ServiceModules
