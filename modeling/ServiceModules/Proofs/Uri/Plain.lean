import ServiceModules.Lookup.Files
import ServiceModules.Proofs.Files.Canonical
import ServiceModules.Proofs.Uri.Percent

/-!
Identifiers that are taken apart. Behind a scheme and three slashes an encoded text is the path as
it is written, so that the path of a file is read back from its identifier. A text of characters
that stand for themselves is its own encoding.
-/

namespace ServiceModules

namespace Percent

def IsPlainText (text : List Char) : Prop := ∀ character ∈ text, isPlain character = true

variable {character : Char} {text : List Char}

theorem IsPlainText.tail (plain : IsPlainText (character :: text)) : IsPlainText text :=
  fun other member => plain other (List.mem_cons_of_mem _ member)

theorem IsPlainText.append {more : List Char} (plain : IsPlainText text)
    (plainMore : IsPlainText more) : IsPlainText (text ++ more) := by
  intro character member
  rcases List.mem_append.mp member with member | member
  · exact plain character member
  · exact plainMore character member

theorem IsPlainText.join {separator : Char} {parts : List (List Char)}
    (plainSeparator : isPlain separator = true) (plain : ∀ part ∈ parts, IsPlainText part) :
    IsPlainText (Text.join separator parts) := by
  induction parts with
  | nil => exact fun _ member => absurd member List.not_mem_nil
  | cons part parts induction =>
      have here := plain part (List.mem_cons_self ..)
      have behind := induction fun other member => plain other (List.mem_cons_of_mem _ member)
      cases parts with
      | nil => exact here
      | cons second parts =>
          rw [Text.join_cons (List.cons_ne_nil _ _)]
          refine here.append fun character member => ?_
          rcases List.mem_cons.mp member with rfl | member
          · exact plainSeparator
          · exact behind character member

theorem IsPlainText.isEncoded (plain : IsPlainText text) : IsEncoded text :=
  fun character member => .inl (plain character member)

theorem encode_of_isPlainText (plain : IsPlainText text) : encode text = text := by
  induction text with
  | nil => rfl
  | cons character text induction =>
      rw [encode_cons_of_isPlain (plain character (List.mem_cons_self ..)), induction plain.tail]

end Percent

namespace Uri

open Percent (IsEncoded)

variable {scheme rest : List Char}

theorem isDropped_of_lt {character : Char} (printed : 32 < character.toNat) :
    isDropped character = false := by
  by_contra dropped
  rw [Bool.not_eq_false, isDropped] at dropped
  have cases : character = '\t' ∨ character = '\r' ∨ character = '\n' := by simpa using dropped
  rcases cases with rfl | rfl | rfl <;> exact absurd printed (by decide)

theorem trimmed_of_printed {text : List Char}
    (printed : ∀ character ∈ text, 32 < character.toNat) : trimmed text = text := by
  have kept : text.dropWhile (fun character => character.toNat ≤ 32) = text := by
    cases text with
    | nil => rfl
    | cons first rest =>
        have here := printed first (List.mem_cons_self ..)
        exact List.dropWhile_cons_of_neg (by rw [decide_eq_true_eq]; omega)
  rw [trimmed, kept, List.filter_eq_self]
  intro character member
  rw [isDropped_of_lt (printed character member)]
  rfl

/-- A scheme is one that identifiers are written with when it is in lower case. -/
structure IsScheme (scheme : List Char) : Prop where
  begins : scheme.head?.any Char.isAlpha = true
  named : scheme.all isSchemeCharacter = true
  lower : scheme.map Char.toLower = scheme

theorem IsScheme.toNat_lt (isScheme : IsScheme scheme) :
    ∀ character ∈ scheme, 32 < character.toNat := by
  intro character member
  have named := List.all_eq_true.mp isScheme.named character member
  by_cases plus : character = '+'
  · rw [plus]
    decide
  · have plain : Percent.isPlain character = true := by
      simp only [isSchemeCharacter, Bool.or_eq_true, List.contains_cons, beq_iff_eq, plus,
        false_or, List.contains_nil, Bool.false_eq_true, or_false] at named
      rcases named with named | rfl | rfl
      · rw [Percent.isPlain, named]
        rfl
      · rfl
      · rfl
    exact (Percent.toNat_of_isPlain plain).1

theorem IsScheme.not_colon (isScheme : IsScheme scheme) :
    ∀ character ∈ scheme, decide (character ≠ ':') = true := by
  intro character member
  refine decide_eq_true ?_
  rintro rfl
  cases List.all_eq_true.mp isScheme.named ':' member

theorem split_of_isEncoded (isScheme : IsScheme scheme) (encoded : IsEncoded rest) :
    split (String.ofList (scheme ++ ':' :: '/' :: '/' :: '/' :: rest)) =
      .ok ⟨String.ofList scheme, '/' :: rest⟩ := by
  have printed : ∀ character ∈ scheme ++ ':' :: '/' :: '/' :: '/' :: rest,
      32 < character.toNat := by
    intro character member
    rcases List.mem_append.mp member with member | member
    · exact isScheme.toNat_lt character member
    · simp only [List.mem_cons] at member
      rcases member with rfl | rfl | rfl | rfl | member
      · decide
      · decide
      · decide
      · decide
      · exact (encoded.toNat member).1
  have whole : (('/' :: rest).takeWhile (· ≠ '#')).takeWhile (· ≠ '?') = '/' :: rest := by
    have slashed : IsEncoded ('/' :: rest) := by
      intro character member
      rcases List.mem_cons.mp member with rfl | member
      · exact .inl rfl
      · exact encoded character member
    have without : ∀ special, Percent.isPlain special = false → special ≠ '%' →
        ('/' :: rest).takeWhile (· ≠ special) = '/' :: rest := fun special isSpecial noSign =>
      List.takeWhile_eq_self_iff.mpr fun character member =>
        decide_eq_true (slashed.ne member isSpecial noSign)
    rw [without '#' rfl (by decide), without '?' rfl (by decide)]
  have schemeSplit : splitScheme (scheme ++ ':' :: '/' :: '/' :: '/' :: rest) =
      (String.ofList scheme, '/' :: '/' :: '/' :: rest) := by
    rw [splitScheme, List.takeWhile_append_of_pos isScheme.not_colon,
      List.dropWhile_append_of_pos isScheme.not_colon]
    simp only [List.takeWhile_cons, List.dropWhile_cons, ne_eq, not_true, decide_false,
      Bool.false_eq_true, if_false, List.append_nil, isScheme.begins, isScheme.named,
      isScheme.lower, Bool.and_self, if_true]
  have authoritySplit : splitAuthority ('/' :: '/' :: '/' :: rest) = ([], '/' :: rest) := by
    rw [splitAuthority]
    rfl
  rw [split, String.toList_ofList, trimmed_of_printed printed, schemeSplit]
  dsimp only
  rw [authoritySplit]
  dsimp only
  rw [whole]
  rfl

end Uri

/-! ## Identifiers of files -/

def FilePath.IsPlain (path : FilePath) : Prop :=
  ∀ name ∈ path.parts, Percent.IsPlainText name.toList

theorem FilePath.IsPlain.isPlainText_join {path : FilePath} (plain : path.IsPlain) :
    Percent.IsPlainText (Text.join '/' (path.parts.map String.toList)) := by
  refine .join rfl fun part member => ?_
  rcases List.mem_map.mp member with ⟨name, nameMember, rfl⟩
  exact plain name nameMember

namespace Uri

variable {path : FilePath} (canonical : path.IsCanonical)
include canonical

theorem ofPath_of_isCanonical :
    ofPath path = String.ofList
      (fileScheme.toList ++
        ':' :: '/' :: '/' :: '/' ::
          Percent.encode (Text.join '/' (path.parts.map String.toList))) := by
  rw [ofPath, FilePath.toList_text canonical, Percent.encode_cons_of_isPlain rfl,
    ← String.toList_inj, String.toList_append, String.toList_ofList, String.toList_ofList,
    fileScheme]
  simp

theorem ofPath_of_isPlain (plain : path.IsPlain) :
    ofPath path = String.ofList
      (fileScheme.toList ++
        ':' :: '/' :: '/' :: '/' :: Text.join '/' (path.parts.map String.toList)) := by
  rw [ofPath_of_isCanonical canonical, Percent.encode_of_isPlainText plain.isPlainText_join]

theorem split_ofPath :
    split (ofPath path) = .ok ⟨fileScheme, Percent.encode path.text.toList⟩ := by
  have isScheme : IsScheme fileScheme.toList := ⟨by decide, by decide, by decide⟩
  rw [ofPath_of_isCanonical canonical, split_of_isEncoded isScheme (Percent.isEncoded_encode _),
    String.ofList_toList, FilePath.toList_text canonical, Percent.encode_cons_of_isPlain rfl]

theorem isFile_ofPath : isFile (ofPath path) = .ok true := by
  rw [isFile, split_ofPath canonical]
  rfl

theorem toPath_ofPath : toPath (ofPath path) = .ok path := by
  rw [toPath, split_ofPath canonical]
  dsimp only
  rw [if_pos rfl, Percent.decode_encode, String.ofList_toList, canonical.isSpelled.ofText_text]

theorem directoryOf?_ofPath :
    FileModules.directoryOf? (ofPath path) = .ok (some path.parent) := by
  rw [FileModules.directoryOf?, isFile_ofPath canonical]
  dsimp only
  rw [toPath_ofPath canonical]
  rfl

end Uri

end ServiceModules
