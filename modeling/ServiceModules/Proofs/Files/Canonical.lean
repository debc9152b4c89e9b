import ServiceModules.Files.Path
import ServiceModules.Proofs.Text.Split

/-!
Canonical paths. A canonical path leads down from the root by one name after the other. It is what
it resolves to, it is read back from its text, and going down by a name makes it longer by that
name.
-/

namespace ServiceModules

namespace FilePath

/-- A name that something in a directory can have. -/
structure IsEntryName (name : String) : Prop where
  isName : isName name.toList = true
  notAbove : name ≠ ".."
  whole : '/' ∉ name.toList

/-- An absolute path on which every name leads one directory down. -/
structure IsCanonical (path : FilePath) : Prop where
  absolute : path.root = .slash
  names : ∀ name ∈ path.parts, IsEntryName name

def below (directory : FilePath) (names : List String) : FilePath :=
  { directory with parts := directory.parts ++ names }

variable {path : FilePath}

theorem IsCanonical.below (canonical : path.IsCanonical) {names : List String}
    (entries : ∀ name ∈ names, IsEntryName name) : (path.below names).IsCanonical where
  absolute := canonical.absolute
  names := by
    intro name member
    rcases List.mem_append.mp member with member | member
    · exact canonical.names name member
    · exact entries name member

theorem IsCanonical.child (canonical : path.IsCanonical) {name : String}
    (entry : IsEntryName name) : (path.below [name]).IsCanonical :=
  canonical.below fun _ member => List.mem_singleton.mp member ▸ entry

@[simp] theorem below_nil (directory : FilePath) : directory.below [] = directory := by
  rw [FilePath.below, List.append_nil]

theorem below_below (directory : FilePath) (names more : List String) :
    (directory.below names).below more = directory.below (names ++ more) := by
  rw [FilePath.below, FilePath.below, FilePath.below, List.append_assoc]

theorem parent_below_singleton (directory : FilePath) (name : String) :
    (directory.below [name]).parent = directory := by
  rw [parent, FilePath.below, List.dropLast_concat]

theorem name_below_singleton (directory : FilePath) (name : String) :
    (directory.below [name]).name = name := by
  rw [FilePath.name, FilePath.below, List.getLastD_concat]

theorem ofText_of_isEntryName {name : String} (entry : IsEntryName name) :
    ofText name = ⟨.current, [name]⟩ := by
  have relative : name.toList.takeWhile (· = '/') = [] := by
    cases characters : name.toList with
    | nil => rfl
    | cons character rest =>
        refine List.takeWhile_cons_of_neg ?_
        rw [decide_eq_true_eq]
        rintro rfl
        exact entry.whole (characters ▸ List.mem_cons_self ..)
  rw [ofText, relative, Text.split_of_not_mem entry.whole,
    List.filter_cons_of_pos entry.isName]
  simp [PathRoot.ofSlashes]

theorem child_of_isEntryName (path : FilePath) {name : String} (entry : IsEntryName name) :
    path.child name = path.below [name] := by
  rw [child, ofText_of_isEntryName entry]
  rfl

theorem foldl_child (path : FilePath) {names : List String}
    (entries : ∀ name ∈ names, IsEntryName name) :
    names.foldl child path = path.below names := by
  induction names generalizing path with
  | nil => exact (below_nil path).symm
  | cons name names induction =>
      rw [List.foldl_cons, child_of_isEntryName path (entries name (List.mem_cons_self ..)),
        induction _ fun other member => entries other (List.mem_cons_of_mem _ member), below_below,
        List.singleton_append]

theorem climb_of_not_mem {reached names : List String} (down : ∀ name ∈ names, name ≠ "..") :
    climb reached names = reached ++ names := by
  induction names generalizing reached with
  | nil => rw [climb, List.append_nil]
  | cons name names induction =>
      rw [climb, if_neg (down name (List.mem_cons_self ..)),
        induction fun other member => down other (List.mem_cons_of_mem _ member),
        List.append_assoc, List.singleton_append]

theorem join_of_isCanonical (canonical : path.IsCanonical) (current : FilePath) :
    current.join path = path := by
  rw [join, isAbsolute, canonical.absolute]
  rfl

theorem resolve_of_isCanonical (canonical : path.IsCanonical) (current : FilePath) :
    current.resolve path = path := by
  rw [resolve, join_of_isCanonical canonical,
    climb_of_not_mem fun name member => (canonical.names name member).notAbove, List.nil_append,
    ← canonical.absolute]

theorem toList_text (canonical : path.IsCanonical) :
    path.text.toList = '/' :: Text.join '/' (path.parts.map String.toList) := by
  rw [text, canonical.absolute, Text.join_eq_intercalate]
  simp [PathRoot.text, String.toList_intercalate]

/-- The name can stand between two slashes; a double dot is such a name. -/
def IsSpelledName (name : String) : Prop := isName name.toList = true ∧ '/' ∉ name.toList

def IsSpelled (path : FilePath) : Prop := ∀ name ∈ path.parts, IsSpelledName name

theorem IsEntryName.isSpelledName {name : String} (entry : IsEntryName name) :
    IsSpelledName name :=
  ⟨entry.isName, entry.whole⟩

theorem IsCanonical.isSpelled (canonical : path.IsCanonical) : path.IsSpelled :=
  fun name member => (canonical.names name member).isSpelledName

section

variable {names : List String} (spelled : ∀ name ∈ names, IsSpelledName name)
include spelled

theorem parts_join :
    ((Text.split '/' (Text.join '/' (names.map String.toList))).filter isName).map
      String.ofList = names := by
  by_cases empty : names = []
  · rw [empty]
    rfl
  · have spelledParts : ∀ part ∈ names.map String.toList, isName part = true ∧ '/' ∉ part := by
      intro part member
      rcases List.mem_map.mp member with ⟨name, nameMember, rfl⟩
      exact spelled name nameMember
    rw [Text.split_join (fun nothing => empty (List.map_eq_nil_iff.mp nothing))
        fun part member => (spelledParts part member).2,
      List.filter_eq_self.mpr fun part member => (spelledParts part member).1, List.map_map]
    simp [Function.comp_def]

theorem takeWhile_join :
    (Text.join '/' (names.map String.toList)).takeWhile (· = '/') = [] := by
  cases names with
  | nil => rfl
  | cons name names =>
      obtain ⟨named, whole⟩ := spelled name (List.mem_cons_self ..)
      cases characters : name.toList with
      | nil =>
          rw [characters] at named
          cases named
      | cons character rest =>
          have different : ¬decide (character = '/') = true := by
            rw [decide_eq_true_eq]
            rintro rfl
            exact whole (characters ▸ List.mem_cons_self ..)
          cases names with
          | nil => simp [Text.join, characters, different]
          | cons second names => simp [Text.join, characters, different]

theorem dropWhile_join :
    (Text.join '/' (names.map String.toList)).dropWhile (· = '/') =
      Text.join '/' (names.map String.toList) := by
  have whole := List.takeWhile_append_dropWhile (p := fun character => decide (character = '/'))
    (l := Text.join '/' (names.map String.toList))
  rwa [takeWhile_join spelled, List.nil_append] at whole

theorem ofText_slashes (slashes : Nat) :
    ofText (String.ofList
        (List.replicate slashes '/' ++ Text.join '/' (names.map String.toList))) =
      ⟨.ofSlashes slashes, names⟩ := by
  have parts : ((Text.split '/' (List.replicate slashes '/' ++
      Text.join '/' (names.map String.toList))).filter isName).map String.ofList = names := by
    induction slashes with
    | zero => exact parts_join spelled
    | succ slashes induction =>
        rw [List.replicate_succ, List.cons_append, Text.split_cons_self,
          List.filter_cons_of_neg (by decide), induction]
  have all : ∀ character ∈ List.replicate slashes '/', decide (character = '/') = true :=
    fun character member => decide_eq_true (List.eq_of_mem_replicate member)
  rw [ofText, String.toList_ofList, parts, List.takeWhile_append_of_pos all,
    takeWhile_join spelled, List.append_nil, List.length_replicate]

end

theorem IsSpelled.ofText_text (spelled : path.IsSpelled) : ofText path.text = path := by
  have named : ∀ (root : PathRoot) slashes, root.text.toList = List.replicate slashes '/' →
      ofText (root.text ++ "/".intercalate path.parts) = ⟨.ofSlashes slashes, path.parts⟩ := by
    intro root slashes isRoot
    rw [← ofText_slashes spelled slashes, ← isRoot, Text.join_eq_intercalate]
    congr 1
    rw [← String.toList_inj]
    simp [String.toList_intercalate]
  rcases path with ⟨root, parts⟩
  rw [text]
  split
  · next here =>
    rw [Bool.and_eq_true, decide_eq_true_eq, List.isEmpty_iff] at here
    obtain ⟨isCurrent, isEmpty⟩ := here
    cases isCurrent
    cases isEmpty
    rfl
  · cases root with
    | current => exact named .current 0 rfl
    | slash => exact named .slash 1 rfl
    | doubleSlash => exact named .doubleSlash 2 rfl

theorem isTooLong_of_prefix {root : PathRoot} {above parts : List String}
    (isAbove : above <+: parts) (fits : isTooLong ⟨root, parts⟩ = false) :
    isTooLong ⟨root, above⟩ = false := by
  rcases isAbove with ⟨more, rfl⟩
  by_cases top : above = []
  · rw [top]
    cases root <;> decide
  · by_cases whole : more = []
    · rwa [whole, List.append_nil] at fits
    · have written : ∀ names : List String, names ≠ [] →
          text ⟨root, names⟩ = root.text ++ "/".intercalate names := by
        intro names some
        rw [text, if_neg]
        simp [some]
      have longer : "/".intercalate (above ++ more) =
          "/".intercalate above ++ ("/" ++ "/".intercalate more) := by
        rw [← String.toList_inj]
        have joined : Text.join '/' (above.map String.toList ++ more.map String.toList) = _ :=
          Text.join_append (mt List.map_eq_nil_iff.mp top) (mt List.map_eq_nil_iff.mp whole)
        simpa [String.toList_intercalate, Text.join_eq_intercalate] using joined
      rw [isTooLong, decide_eq_false_iff_not] at fits ⊢
      rw [written _ (List.append_ne_nil_of_left_ne_nil top more), longer] at fits
      rw [written _ top]
      simp only [String.utf8ByteSize_append] at fits ⊢
      omega

end FilePath

end ServiceModules
