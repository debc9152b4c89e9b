import Mathlib.Logic.Function.Basic
import ServiceModules.Proofs.Lookup.Agreement

/-!
Counterparts. The identifier of a module in memory and that of its file below a directory end with
one relative path and differ in what stands before it. Exchanging the two beginnings turns each of
them into the other one, and it changes no other identifier.
-/

namespace ServiceModules

namespace Text

def exchangeStart (left right text : List Char) : List Char :=
  if left.isPrefixOf text then right ++ text.drop left.length
  else if right.isPrefixOf text then left ++ text.drop right.length
  else text

variable {left right : List Char}

theorem exchangeStart_left (rest : List Char) :
    exchangeStart left right (left ++ rest) = right ++ rest := by
  have begins : left.isPrefixOf (left ++ rest) = true :=
    List.isPrefixOf_iff_prefix.mpr (List.prefix_append _ _)
  rw [exchangeStart, if_pos begins, List.drop_left]

theorem not_isPrefixOf_append {first other : Char} (leftFirst : left.head? = some first)
    (rightFirst : right.head? = some other) (different : first ≠ other) (rest : List Char) :
    left.isPrefixOf (right ++ rest) = false := by
  rcases List.head?_eq_some_iff.mp leftFirst with ⟨behind, rfl⟩
  rcases List.head?_eq_some_iff.mp rightFirst with ⟨more, rfl⟩
  rw [List.cons_append, List.isPrefixOf, beq_eq_false_iff_ne.mpr different, Bool.false_and]

theorem exchangeStart_involutive {first other : Char} (leftFirst : left.head? = some first)
    (rightFirst : right.head? = some other) (different : first ≠ other) :
    Function.Involutive (exchangeStart left right) := by
  have fromRight : ∀ rest, exchangeStart left right (right ++ rest) = left ++ rest := by
    intro rest
    have begins : right.isPrefixOf (right ++ rest) = true :=
      List.isPrefixOf_iff_prefix.mpr (List.prefix_append _ _)
    rw [exchangeStart, not_isPrefixOf_append leftFirst rightFirst different,
      if_neg Bool.false_ne_true, if_pos begins, List.drop_left]
  intro text
  by_cases isLeft : left.isPrefixOf text = true
  · rcases List.isPrefixOf_iff_prefix.mp isLeft with ⟨rest, rfl⟩
    rw [exchangeStart_left, fromRight]
  · by_cases isRight : right.isPrefixOf text = true
    · rcases List.isPrefixOf_iff_prefix.mp isRight with ⟨rest, rfl⟩
      rw [fromRight, exchangeStart_left]
    · have stays : exchangeStart left right text = text := by
        rw [exchangeStart, if_neg isLeft, if_neg isRight]
      rw [stays, stays]

theorem slash_join {names : List String} (nonempty : names ≠ []) :
    '/' :: join '/' (names.map String.toList) =
      names.flatMap fun name => '/' :: name.toList := by
  induction names with
  | nil => exact absurd rfl nonempty
  | cons name names induction =>
      cases names with
      | nil => simp [join]
      | cons second names =>
          have behind := induction (List.cons_ne_nil _ _)
          rw [List.map_cons, join_cons (List.map_eq_nil_iff.not.mpr (List.cons_ne_nil _ _)),
            behind]
          rfl

end Text

def FilePath.descent (path : FilePath) : String :=
  String.ofList (path.parts.flatMap fun name => '/' :: name.toList)

namespace DottedName

variable (name : DottedName) (root : FilePath)

def place (name : DottedName) : String :=
  String.ofList (Text.join '/' (name.fileNames.map String.toList))

theorem memoryUri_eq_append : name.memoryUri = "memory:///" ++ name.place := by
  rw [memoryUri_eq, ← String.toList_inj, Uri.memoryScheme, place]
  simp

variable {root} in
theorem fileUri_eq_append (canonical : root.IsCanonical) (plain : root.IsPlain) :
    name.fileUri root = "file://" ++ root.descent ++ "/" ++ name.place := by
  have some : name.fileNames ≠ [] :=
    List.append_ne_nil_of_right_ne_nil _ (List.cons_ne_nil _ _)
  have parts : (name.file root).parts = root.parts ++ name.fileNames := rfl
  rw [fileUri, Uri.ofPath_of_isPlain (name.isCanonical_file canonical) (name.isPlain_file plain),
    parts, Text.slash_join (List.append_ne_nil_of_right_ne_nil _ some), List.flatMap_append,
    ← Text.slash_join some, ← String.toList_inj, Uri.fileScheme, place, FilePath.descent]
  simp

end DottedName

namespace Uri

def memoryStart : String := "memory://"

def fileStart (root : FilePath) : String := "file://" ++ root.descent

/-- The identifier of a module in memory for that of its file, and the other way round. -/
def counterpart (root : FilePath) (uri : String) : String :=
  String.ofList (Text.exchangeStart memoryStart.toList (fileStart root).toList uri.toList)

theorem counterpart_involutive (root : FilePath) : Function.Involutive (counterpart root) := by
  intro uri
  have memoryFirst : memoryStart.toList.head? = some 'm' := by simp [memoryStart]
  have fileFirst : (fileStart root).toList.head? = some 'f' := by simp [fileStart]
  rw [counterpart, counterpart, String.toList_ofList,
    Text.exchangeStart_involutive memoryFirst fileFirst (by decide), String.ofList_toList]

theorem counterpart_memoryUri {root : FilePath} (canonical : root.IsCanonical)
    (plain : root.IsPlain) (name : DottedName) :
    counterpart root name.memoryUri = name.fileUri root := by
  have start : name.memoryUri.toList = memoryStart.toList ++ '/' :: name.place.toList := by
    rw [name.memoryUri_eq_append]
    simp [memoryStart]
  rw [counterpart, start, Text.exchangeStart_left, name.fileUri_eq_append canonical plain,
    ← String.toList_inj]
  simp [fileStart]

end Uri

end ServiceModules
