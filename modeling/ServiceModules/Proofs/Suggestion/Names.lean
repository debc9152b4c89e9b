import Mathlib
import ServiceModules.Proofs.Distinct
import ServiceModules.Proofs.Suggestion.Distance
import ServiceModules.Suggestion.Basic

/-!
Suggestions are exactly the close names. Which names are close is told by edits and by the names of
the candidates alone. As there is one list of these names in order, neither the order of the
candidates nor the dots before the path play any part.
-/

namespace ServiceModules

/-! ## Distinct texts in order -/

namespace Text

theorem mem_sortedDistinct {text : String} {texts : List String} :
    text ∈ sortedDistinct texts ↔ text ∈ texts := by
  rw [sortedDistinct, List.mem_eraseDups, sorted, List.mem_mergeSort]

theorem pairwise_sortedDistinct (texts : List String) :
    (sortedDistinct texts).Pairwise (· < ·) := by
  have ordered : (sorted texts).Pairwise (· ≤ ·) := by
    have sorts := @List.pairwise_mergeSort String (fun left right => decide (left ≤ right))
      (fun _ _ _ first second => by
        simp only [decide_eq_true_eq] at first second ⊢
        exact first.trans second)
      (fun left right => by
        simp only [Bool.or_eq_true, decide_eq_true_eq]
        exact le_total left right) texts
    exact sorts.imp of_decide_eq_true
  have weak := ordered.sublist (eraseDups_sublist _)
  exact (weak.and (nodup_eraseDups _)).imp fun both => lt_of_le_of_ne both.1 both.2

end Text

namespace Suggestion

/-! ## Names of candidates -/

/-- The name is the part of a file name before its first dot, or all of it if it has none. -/
def IsStem (name fileName : String) : Prop :=
  ∃ rest, fileName.toList = name.toList ++ rest ∧ '.' ∉ name.toList ∧
    (rest = [] ∨ ∃ extension, rest = '.' :: extension)

theorem moduleName_eq_iff {name fileName : String} :
    moduleName fileName = name ↔ IsStem name fileName := by
  constructor
  · rintro rfl
    rw [IsStem, moduleName, String.toList_ofList]
    refine ⟨_, List.takeWhile_append_dropWhile.symm, ?_, ?_⟩
    · intro dotted
      have other := List.mem_takeWhile_imp dotted
      exact of_decide_eq_true other rfl
    · cases behind : fileName.toList.dropWhile (· ≠ '.') with
      | nil => exact .inl rfl
      | cons first extension =>
          have ended := List.head?_dropWhile_not (· ≠ '.') fileName.toList
          rw [behind] at ended
          have dot : first = '.' := not_not.mp (of_decide_eq_false ended)
          exact .inr ⟨extension, by rw [dot]⟩
  · rintro ⟨rest, whole, undotted, ends⟩
    have inside : ∀ character ∈ name.toList, decide (character ≠ '.') = true := by
      intro character member
      exact decide_eq_true fun dot => undotted (dot ▸ member)
    rw [moduleName, whole, List.takeWhile_append_of_pos inside]
    rcases ends with rfl | ⟨extension, rfl⟩
    · rw [List.takeWhile_nil, List.append_nil, String.ofList_toList]
    · rw [List.takeWhile_cons_of_neg (by decide), List.append_nil, String.ofList_toList]

theorem mem_modules {name : String} {candidates : List String} :
    name ∈ modules candidates ↔ name ≠ "" ∧ ∃ candidate ∈ candidates, IsStem name candidate := by
  simp only [modules, Text.mem_sortedDistinct, List.mem_filter, List.mem_map, moduleName_eq_iff,
    decide_eq_true_eq]
  exact and_comm

/-! ## Measures -/

def IsEditDistance (source target : List Char) (count : Nat) : Prop :=
  EditsWithin count source target ∧ ∀ fewer, EditsWithin fewer source target → count ≤ fewer

theorem isEditDistance_distance (source target : List Char) :
    IsEditDistance source target (distance source target) :=
  ⟨editsWithin_distance source target, fun _ edits => distance_le_iff.mpr edits⟩

theorem IsEditDistance.eq_distance {source target : List Char} {count : Nat}
    (isDistance : IsEditDistance source target count) : count = distance source target :=
  Nat.le_antisymm (isDistance.2 _ (editsWithin_distance source target))
    (distance_le_iff.mpr isDistance.1)

/-- The measure counts edits up to a limit. Beyond the limit it may stop to count, and then it only
tells that there are more. -/
structure CountsEdits (measure : List Char → List Char → Nat → Nat) : Prop where
  within : ∀ {source target count limit}, IsEditDistance source target count → count ≤ limit →
    measure source target limit = count
  beyond : ∀ {source target count limit}, IsEditDistance source target count → limit < count →
    limit < measure source target limit

theorem CountsEdits.le_iff {measure : List Char → List Char → Nat → Nat}
    (counts : CountsEdits measure) {source target : List Char} {limit : Nat} :
    measure source target limit ≤ limit ↔ distance source target ≤ limit := by
  have isDistance := isEditDistance_distance source target
  rcases Nat.lt_or_ge limit (distance source target) with more | atMost
  · have beyond := counts.beyond isDistance more
    omega
  · rw [counts.within isDistance atMost]

/-! ## Close names -/

/-- The names in order, each once, that a candidate has before its first dot, and that at most
`limit` edits turn into the name of the path. -/
structure AreClose (path : ImportPath) (candidates : List String) (limit : Nat)
    (names : List String) : Prop where
  inOrder : names.Pairwise (· < ·)
  mem_iff : ∀ name, name ∈ names ↔ name ≠ "" ∧ (∃ candidate ∈ candidates, IsStem name candidate) ∧
    EditsWithin limit name.toList path.dottedName.toList

variable {path : ImportPath} {candidates : List String} {limit : Nat}

theorem AreClose.unique {names others : List String}
    (close : AreClose path candidates limit names)
    (alsoClose : AreClose path candidates limit others) : names = others :=
  close.inOrder.eq_of_mem_iff alsoClose.inOrder fun name =>
    (close.mem_iff name).trans (alsoClose.mem_iff name).symm

theorem areClose_suggest (path : ImportPath) (candidates : List String) (limit : Nat) :
    AreClose path candidates limit (suggest path candidates limit) where
  inOrder := (Text.pairwise_sortedDistinct _).filter _
  mem_iff := by
    intro name
    rw [suggest, List.mem_filter, mem_modules, isClose, decide_eq_true_eq, distance_comm,
      distance_le_iff, and_assoc]

structure SuggestsClose (path : ImportPath) (candidates : List String) (limit : Nat) : Prop where
  close : AreClose path candidates limit (suggest path candidates limit)
  /-- Any measure that counts edits up to the limit selects the same names. -/
  measured : ∀ measure, CountsEdits measure → suggest path candidates limit =
    (modules candidates).filter fun name =>
      measure path.dottedName.toList name.toList limit ≤ limit
  anyOrder : ∀ others, (∀ candidate, candidate ∈ others ↔ candidate ∈ candidates) →
    suggest path others limit = suggest path candidates limit
  isModule : (suggest path candidates limit).Sublist (modules candidates)
  grows : ∀ more, limit ≤ more →
    (suggest path candidates limit).Sublist (suggest path candidates more)
  own : path.dottedName ∈ modules candidates → path.dottedName ∈ suggest path candidates limit
  anyLevel : ∀ level, suggest ⟨level, path.parts⟩ candidates limit =
    suggest path candidates limit

/-- Suggestions are exactly the close names, for any path, any candidates and any limit. -/
theorem suggest_close_names (path : ImportPath) (candidates : List String) (limit : Nat) :
    SuggestsClose path candidates limit where
  close := areClose_suggest path candidates limit
  measured := by
    intro measure counts
    rw [suggest]
    apply List.filter_congr
    intro name _
    exact decide_eq_decide.mpr counts.le_iff.symm
  anyOrder := by
    intro others same
    have close : AreClose path candidates limit (suggest path others limit) :=
      { areClose_suggest path others limit with
        mem_iff := fun name => by
          rw [(areClose_suggest path others limit).mem_iff]
          simp only [same] }
    exact close.unique (areClose_suggest path candidates limit)
  isModule := List.filter_sublist
  grows := by
    intro more atMost
    apply List.monotone_filter_right
    intro name isClose
    exact decide_eq_true ((of_decide_eq_true isClose).trans atMost)
  own := by
    intro isModule
    rw [suggest, List.mem_filter, isClose, distance_self]
    exact ⟨isModule, decide_eq_true (Nat.zero_le limit)⟩
  anyLevel := fun _ => rfl

/-! A misspelt relative path, with a measure that stops one beyond the limit. One candidate is given
twice, one has no name before its first dot, and one is too far away. -/

def countUpTo (source target : List Char) (limit : Nat) : Nat :=
  min (distance source target) (limit + 1)

theorem countsEdits_countUpTo : CountsEdits countUpTo where
  within := by
    intro source target count limit isDistance atMost
    rw [countUpTo, ← isDistance.eq_distance]
    omega
  beyond := by
    intro source target count limit isDistance more
    rw [countUpTo, ← isDistance.eq_distance]
    omega

theorem suggest_close_names_misspelt :
    suggest (.ofText "..utl") ["utils.mg", "util.tar.gz", ".utl", "types.mg", "util.mg"] 2 =
        ["util", "utils"] ∧
      CountsEdits countUpTo ∧
      SuggestsClose (.ofText "..utl") ["utils.mg", "util.tar.gz", ".utl", "types.mg", "util.mg"]
        2 :=
  ⟨by cbv, countsEdits_countUpTo, suggest_close_names _ _ 2⟩

end Suggestion

end ServiceModules
