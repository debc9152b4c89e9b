import ServiceModules.Lookup.Memory
import ServiceModules.Proofs.Token.Clear
import ServiceModules.Proofs.Uri.Plain

/-!
Names of modules. A module has a dotted name of identifiers. In memory the name turns into an
identifier and back; below a directory it is the path of a file. Either way the identifier ends with
the same relative path.
-/

namespace ServiceModules

namespace Lexeme

theorem isPlain_of_isNameCharacter {character : Char}
    (named : isNameCharacter character = true) : Percent.isPlain character = true := by
  simp only [isNameCharacter, isNameStart, Bool.or_eq_true, Bool.and_eq_true,
    decide_eq_true_eq] at named
  unfold Percent.isPlain Char.isAlphanum Char.isAlpha Char.isUpper Char.isLower Char.isDigit
  simp only [Bool.or_eq_true, Bool.and_eq_true, decide_eq_true_eq, List.contains_cons,
    List.contains_nil, beq_iff_eq, Bool.or_false]
  rcases named with ((lower | upper) | rfl) | digit
  · exact .inl (.inl (.inr lower))
  · exact .inl (.inl (.inl upper))
  · exact .inr (.inl rfl)
  · exact .inl (.inr digit)

variable {name : String} (identifier : isIdentifier name = true)
include identifier

theorem isNameCharacter_of_mem {character : Char} (member : character ∈ name.toList) :
    isNameCharacter character = true :=
  List.all_eq_true.mp (isIdentifier_iff.mp identifier).2 character member

theorem not_mem_of_isIdentifier {character : Char} (mark : isNameCharacter character = false) :
    character ∉ name.toList := by
  intro member
  rw [isNameCharacter_of_mem identifier member] at mark
  cases mark

theorem toList_ne_nil_of_isIdentifier : name.toList ≠ [] := by
  have begins := (isIdentifier_iff.mp identifier).1
  intro empty
  rw [empty] at begins
  cases begins

theorem isPlainText_of_isIdentifier : Percent.IsPlainText name.toList := fun _ member =>
  isPlain_of_isNameCharacter (isNameCharacter_of_mem identifier member)

theorem isEntryName_append_of_isIdentifier {behind : String} (whole : '/' ∉ behind.toList) :
    FilePath.IsEntryName (name ++ behind) := by
  have noDot : '.' ∉ name.toList := not_mem_of_isIdentifier identifier rfl
  have noSlash : '/' ∉ name.toList := not_mem_of_isIdentifier identifier rfl
  cases characters : name.toList with
  | nil => exact absurd characters (toList_ne_nil_of_isIdentifier identifier)
  | cons first rest =>
      have notDot : first ≠ '.' := by
        rintro rfl
        exact noDot (characters ▸ List.mem_cons_self ..)
      refine ⟨?_, ?_, ?_⟩
      · simp [FilePath.isName, characters, notDot]
      · intro above
        have same := congrArg String.toList above
        rw [String.toList_append, characters] at same
        exact notDot (List.cons.inj same).1
      · rw [String.toList_append, List.mem_append, not_or]
        exact ⟨noSlash, whole⟩

theorem isEntryName_of_isIdentifier : FilePath.IsEntryName name := by
  have entry : FilePath.IsEntryName (name ++ "") :=
    isEntryName_append_of_isIdentifier identifier (by decide)
  rwa [String.append_empty] at entry

end Lexeme

namespace Text

theorem join_append_last {separator : Char} (parts : List (List Char)) (last behind : List Char) :
    join separator (parts ++ [last ++ behind]) = join separator (parts ++ [last]) ++ behind := by
  by_cases empty : parts = []
  · rw [empty]
    rfl
  · rw [join_append empty (List.cons_ne_nil _ _), join_append empty (List.cons_ne_nil _ _), join,
      join, List.append_assoc, List.cons_append]

end Text

theorem Uri.exchange_join {old new : Char} {parts : List (List Char)}
    (without : ∀ part ∈ parts, old ∉ part) :
    exchange old new (Text.join old parts) = Text.join new parts := by
  have keeps : ∀ part ∈ parts, exchange old new part = part := by
    intro part member
    refine (List.map_congr_left fun character isIn => if_neg ?_).trans (List.map_id' part)
    rintro rfl
    exact without part member isIn
  induction parts with
  | nil => rfl
  | cons part parts induction =>
      have here := keeps part (List.mem_cons_self ..)
      cases parts with
      | nil => exact here
      | cons second parts =>
          rw [Text.join_cons (List.cons_ne_nil _ _), Text.join_cons (List.cons_ne_nil _ _),
            exchange, List.map_append, List.map_cons, if_pos rfl]
          rw [exchange] at here
          rw [here, ← exchange,
            induction (fun other member => without other (List.mem_cons_of_mem _ member))
              fun other member => keeps other (List.mem_cons_of_mem _ member)]

/-- A name of identifiers with dots between them. -/
structure DottedName where
  parts : List String
  nonempty : parts ≠ []
  identifiers : ∀ part ∈ parts, Lexeme.isIdentifier part = true

namespace DottedName

def text (name : DottedName) : String :=
  String.ofList (Text.join '.' (name.parts.map String.toList))

def last (name : DottedName) : String := name.parts.getLastD ""

def fileNamesOf (parts : List String) : List String :=
  parts.dropLast ++ [parts.getLastD "" ++ moduleExtension]

def fileNames (name : DottedName) : List String := fileNamesOf name.parts

def memoryUri (name : DottedName) : String := Uri.ofModuleName name.text

def file (root : FilePath) (name : DottedName) : FilePath := root.below name.fileNames

def fileUri (root : FilePath) (name : DottedName) : String := Uri.ofPath (name.file root)

variable (name : DottedName)

theorem not_mem_parts {character : Char} (mark : Lexeme.isNameCharacter character = false) :
    ∀ part ∈ name.parts.map String.toList, character ∉ part := by
  intro part member
  rcases List.mem_map.mp member with ⟨identifier, isPart, rfl⟩
  exact Lexeme.not_mem_of_isIdentifier (name.identifiers identifier isPart) mark

theorem split_text : Text.split '.' name.text.toList = name.parts.map String.toList := by
  rw [text, String.toList_ofList,
    Text.split_join (fun empty => name.nonempty (List.map_eq_nil_iff.mp empty))
      (name.not_mem_parts rfl)]

theorem text_injective {name other : DottedName} (same : name.text = other.text) :
    name = other := by
  have parts := name.split_text
  rw [same, other.split_text] at parts
  have equal : other.parts = name.parts :=
    (List.map_inj_right fun _ _ => String.toList_inj.mp).mp parts
  rcases name with ⟨parts, _, _⟩
  rcases other with ⟨otherParts, _, _⟩
  cases equal
  rfl

theorem dropLast_append_last : name.parts.dropLast ++ [name.last] = name.parts := by
  rw [last, List.getLastD_eq_getLast?, List.getLast?_eq_some_getLast name.nonempty,
    Option.getD_some, List.dropLast_concat_getLast name.nonempty]

theorem last_mem_parts : name.last ∈ name.parts := by
  have whole := name.dropLast_append_last
  rw [← whole]
  exact List.mem_append_right _ (List.mem_singleton_self _)

theorem isIdentifier_of_mem_dropLast :
    ∀ part ∈ name.parts.dropLast, Lexeme.isIdentifier part = true :=
  fun part member => name.identifiers part ((List.dropLast_sublist _).subset member)

theorem last_mem_fileNames : name.last ++ moduleExtension ∈ name.fileNames :=
  List.mem_append_right _ (List.mem_singleton_self _)

theorem toList_moduleExtension : moduleExtension.toList = ['.', 'm', 'g'] := by
  decide

theorem isPlainText_moduleExtension : Percent.IsPlainText moduleExtension.toList := by
  rw [toList_moduleExtension]
  intro character member
  simp only [List.mem_cons, List.not_mem_nil, or_false] at member
  rcases member with rfl | rfl | rfl <;> rfl

theorem join_fileNames :
    Text.join '/' (name.fileNames.map String.toList) =
      Text.join '/' (name.parts.map String.toList) ++ moduleExtension.toList := by
  have whole := congrArg (List.map String.toList) name.dropLast_append_last
  rw [List.map_append, List.map_singleton] at whole
  rw [fileNames, fileNamesOf, List.map_append, List.map_singleton, String.toList_append,
    Text.join_append_last, ← last, whole]

theorem isEntryName_of_mem_fileNames :
    ∀ fileName ∈ name.fileNames, FilePath.IsEntryName fileName := by
  intro fileName member
  rcases List.mem_append.mp member with member | member
  · exact Lexeme.isEntryName_of_isIdentifier (name.isIdentifier_of_mem_dropLast fileName member)
  · rw [List.mem_singleton.mp member]
    exact Lexeme.isEntryName_append_of_isIdentifier (name.identifiers _ name.last_mem_parts)
      (by decide)

theorem isPlainText_join :
    Percent.IsPlainText (Text.join '/' (name.parts.map String.toList)) := by
  refine .join rfl fun part member => ?_
  rcases List.mem_map.mp member with ⟨identifier, isPart, rfl⟩
  exact Lexeme.isPlainText_of_isIdentifier (name.identifiers identifier isPart)

theorem isPlainText_join_fileNames :
    Percent.IsPlainText (Text.join '/' (name.fileNames.map String.toList)) := by
  rw [join_fileNames]
  exact name.isPlainText_join.append isPlainText_moduleExtension

/-! ## In memory -/

theorem memoryUri_eq :
    name.memoryUri = String.ofList
      (Uri.memoryScheme.toList ++
        ':' :: '/' :: '/' :: '/' :: Text.join '/' (name.fileNames.map String.toList)) := by
  rw [memoryUri, Uri.ofModuleName, text, String.toList_ofList,
    Uri.exchange_join (name.not_mem_parts rfl), join_fileNames, ← String.toList_inj,
    Uri.memoryScheme]
  simp

theorem split_memoryUri :
    Uri.split name.memoryUri =
      .ok ⟨Uri.memoryScheme, '/' :: Text.join '/' (name.fileNames.map String.toList)⟩ := by
  have isScheme : Uri.IsScheme Uri.memoryScheme.toList := ⟨by decide, by decide, by decide⟩
  rw [memoryUri_eq, Uri.split_of_isEncoded isScheme name.isPlainText_join_fileNames.isEncoded,
    String.ofList_toList]

theorem moduleName?_memoryUri : Uri.moduleName? name.memoryUri = .ok (some name.text) := by
  have named : (Text.join '/' (name.fileNames.map String.toList)).take
      ((Text.join '/' (name.fileNames.map String.toList)).length - moduleExtension.length) =
        Text.join '/' (name.parts.map String.toList) := by
    rw [join_fileNames, List.length_append, String.length_toList, Nat.add_sub_cancel,
      List.take_left]
  have extended : moduleExtension.toList.isSuffixOf
      ('/' :: Text.join '/' (name.fileNames.map String.toList)) = true := by
    rw [List.isSuffixOf_iff_suffix, join_fileNames]
    exact (List.suffix_append _ _).trans (List.suffix_cons _ _)
  rw [Uri.moduleName?, split_memoryUri]
  simp only [Except.map, extended, decide_true, Bool.and_self, if_true]
  rw [List.dropWhile_cons_of_pos (by decide), FilePath.dropWhile_join
    fun part member => (name.isEntryName_of_mem_fileNames part member).isSpelledName, named,
    Uri.exchange_join (name.not_mem_parts rfl), text]

end DottedName

end ServiceModules
