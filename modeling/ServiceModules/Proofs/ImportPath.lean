import Mathlib.Data.List.TakeWhile
import ServiceModules.ImportPath
import ServiceModules.Proofs.Text.Split

/-!
Import paths and their texts. Every text is the text of one path, the path that it is read as. Other
paths have no text of their own: a part with a dot is read as several parts, and a first part that
is empty as one more leading dot.
-/

namespace ServiceModules

namespace ImportPath

/-- The parts of the path can be told from its text. -/
structure IsLegible (path : ImportPath) : Prop where
  undotted : ∀ part ∈ path.parts, '.' ∉ part.toList
  begins : ∀ part, path.parts.head? = some part → part ≠ ""

def named (path : ImportPath) : List Char := Text.join '.' (path.parts.map String.toList)

variable {path other : ImportPath}

theorem toList_text (path : ImportPath) :
    path.text.toList = List.replicate path.level '.' ++ path.named := by
  rw [text, dottedName, String.toList_append, String.toList_ofList, String.toList_ofList, named]

theorem IsLegible.named_cases (legible : path.IsLegible) : path.parts = [] ∨
    ∃ character rest, path.named = character :: rest ∧ character ≠ '.' := by
  cases parts : path.parts with
  | nil => exact .inl rfl
  | cons first rest =>
      right
      have whole := legible.undotted first (parts ▸ List.mem_cons_self ..)
      have some := legible.begins first (by rw [parts, List.head?_cons])
      cases characters : first.toList with
      | nil => exact absurd (String.toList_eq_nil_iff.mp characters) some
      | cons character more =>
          rw [characters] at whole
          have notDot : character ≠ '.' := fun dot => whole (dot ▸ List.mem_cons_self ..)
          rw [named, parts, List.map_cons, characters]
          cases rest with
          | nil => exact ⟨character, more, rfl, notDot⟩
          | cons second rest => exact ⟨character, _, rfl, notDot⟩

theorem IsLegible.dots_text (legible : path.IsLegible) :
    path.text.toList.takeWhile (· = '.') = List.replicate path.level '.' ∧
      path.text.toList.dropWhile (· = '.') = path.named := by
  have dots : ∀ character ∈ List.replicate path.level '.', decide (character = '.') = true := by
    intro character member
    rw [List.eq_of_mem_replicate member]
    rfl
  rw [toList_text, List.takeWhile_append_of_pos dots, List.dropWhile_append_of_pos dots]
  rcases legible.named_cases with none | ⟨character, rest, characters, notDot⟩
  · rw [named, none]
    exact ⟨List.append_nil _, rfl⟩
  · rw [characters]
    simp [notDot]

theorem IsLegible.ofText_text (legible : path.IsLegible) : ofText path.text = path := by
  rcases legible.dots_text with ⟨dots, behind⟩
  rw [ofText, dots, behind, List.length_replicate]
  rcases legible.named_cases with none | ⟨character, rest, characters, _⟩
  · cases path with
    | mk level parts =>
        cases none
        rfl
  · have parts : Text.split '.' path.named = path.parts.map String.toList := by
      apply Text.split_join
      · intro nothing
        rw [named, nothing] at characters
        cases characters
      · intro part member
        rcases List.mem_map.mp member with ⟨name, isPart, rfl⟩
        exact legible.undotted name isPart
    have some : path.named ≠ [] := characters ▸ List.cons_ne_nil _ _
    rw [if_neg some, parts, List.map_map]
    simp [Function.comp_def]

theorem named_ofText (text : String) :
    (ofText text).named = text.toList.dropWhile (· = '.') := by
  rw [named, ofText]
  split
  · next nothing =>
    rw [nothing]
    rfl
  · rw [List.map_map]
    simp only [Function.comp_def, String.toList_ofList, List.map_id', Text.join_split]

theorem text_ofText (text : String) : (ofText text).text = text := by
  have dots : List.replicate (text.toList.takeWhile (· = '.')).length '.' =
      text.toList.takeWhile (· = '.') := by
    symm
    rw [List.eq_replicate_iff]
    refine ⟨rfl, fun character member => ?_⟩
    have dot := List.mem_takeWhile_imp member
    exact of_decide_eq_true dot
  apply String.toList_inj.mp
  rw [toList_text, named_ofText]
  show List.replicate (text.toList.takeWhile (· = '.')).length '.' ++ _ = _
  rw [dots, List.takeWhile_append_dropWhile]

/-! A part with a dot is read as two parts, and an empty first part as one more leading dot. -/

example : ofText (text ⟨0, ["a.b"]⟩) = ⟨0, ["a", "b"]⟩ ∧
    ofText (text ⟨1, ["", "a"]⟩) = ⟨2, ["a"]⟩ := by
  decide

theorem IsLegible.text_inj (legible : path.IsLegible) (alsoLegible : other.IsLegible) :
    path.text = other.text ↔ path = other := by
  constructor
  · intro same
    rw [← legible.ofText_text, ← alsoLegible.ofText_text, same]
  · exact congrArg text

end ImportPath

end ServiceModules
