import Mathlib.Data.List.TakeWhile
import ServiceModules.Proofs.Charset.Utf8
import ServiceModules.Uri.Percent

/-!
Percent encoding and back. An encoded text has only characters that stand for themselves, percent
signs among them, and decoding it gives the text that was encoded, whatever characters it has.
-/

namespace ServiceModules

namespace Percent

variable {character : Char} {text : List Char}

theorem toNat_of_isPlain (plain : isPlain character = true) :
    32 < character.toNat ∧ character.toNat < 128 := by
  unfold isPlain Char.isAlphanum Char.isAlpha Char.isUpper Char.isLower Char.isDigit at plain
  simp only [Bool.or_eq_true, Bool.and_eq_true, decide_eq_true_eq, List.contains_cons,
    List.contains_nil, beq_iff_eq, Bool.or_false] at plain
  rcases plain with ((upper | lower) | digit) | rfl | rfl | rfl | rfl | rfl
  · change 65 ≤ character.toNat ∧ character.toNat ≤ 90 at upper
    omega
  · change 97 ≤ character.toNat ∧ character.toNat ≤ 122 at lower
    omega
  · change 48 ≤ character.toNat ∧ character.toNat ≤ 57 at digit
    omega
  all_goals decide

/-! ## Encoded texts -/

def IsEncoded (text : List Char) : Prop :=
  ∀ character ∈ text, isPlain character = true ∨ character = '%'

theorem IsEncoded.toNat (encoded : IsEncoded text) (member : character ∈ text) :
    32 < character.toNat ∧ character.toNat < 128 := by
  rcases encoded character member with plain | rfl
  · exact toNat_of_isPlain plain
  · decide

theorem IsEncoded.ne (encoded : IsEncoded text) (member : character ∈ text) {other : Char}
    (special : isPlain other = false) (noSign : other ≠ '%') : character ≠ other := by
  rintro rfl
  rcases encoded character member with plain | sign
  · rw [plain] at special
    cases special
  · exact noSign sign

theorem isPlain_upperDigit : ∀ digit < 16, isPlain (upperDigit digit) = true := by
  decide

theorem isEncoded_encodeByte (byte : UInt8) : IsEncoded (encodeByte byte) := by
  have small := byte.toNat_lt
  intro character member
  simp only [encodeByte, List.mem_cons, List.not_mem_nil, or_false] at member
  rcases member with rfl | rfl | rfl
  · exact .inr rfl
  · exact .inl (isPlain_upperDigit _ (by omega))
  · exact .inl (isPlain_upperDigit _ (by omega))

theorem isEncoded_encode (characters : List Char) : IsEncoded (encode characters) := by
  intro character member
  rcases List.mem_flatMap.mp member with ⟨encoded, _, member⟩
  rw [encodeCharacter] at member
  split at member
  · next plain => exact .inl (List.mem_singleton.mp member ▸ plain)
  · rcases List.mem_flatMap.mp member with ⟨byte, _, member⟩
    exact isEncoded_encodeByte byte character member

theorem encode_cons_of_isPlain (plain : isPlain character = true) (rest : List Char) :
    encode (character :: rest) = character :: encode rest := by
  rw [encode, List.flatMap_cons, encodeCharacter, if_pos plain]
  rfl

/-! ## Decoding -/

theorem digitValue?_upperDigit : ∀ digit < 16, digitValue? (upperDigit digit) = some digit := by
  decide

theorem decodeBytes_encodeByte (byte : UInt8) (rest : List Char) :
    decodeBytes 0 (encodeByte byte ++ rest) = byte :: decodeBytes 0 rest := by
  have small := byte.toNat_lt
  have escaped : escaped? (upperDigit (byte.toNat / 16) :: upperDigit (byte.toNat % 16) :: rest) =
      some byte := by
    rw [escaped?, digitValue?_upperDigit _ (by omega), digitValue?_upperDigit _ (by omega)]
    dsimp only
    rw [Nat.div_add_mod', UInt8.ofNat_toNat]
  rw [encodeByte, List.cons_append, decodeBytes, if_pos rfl, List.cons_append, List.cons_append,
    List.nil_append, escaped]
  rfl

theorem decodeBytes_flatMap_encodeByte (bytes : Bytes) (rest : List Char) :
    decodeBytes 0 (bytes.flatMap encodeByte ++ rest) = bytes ++ decodeBytes 0 rest := by
  induction bytes with
  | nil => rfl
  | cons byte bytes induction =>
      rw [List.flatMap_cons, List.append_assoc, decodeBytes_encodeByte, induction,
        List.cons_append]

theorem utf8EncodeChar_of_isPlain (plain : isPlain character = true) :
    String.utf8EncodeChar character = [UInt8.ofNat character.toNat] := by
  have small : character.val.toNat ≤ 127 := Nat.le_of_lt_succ (toNat_of_isPlain plain).2
  rw [String.utf8EncodeChar]
  exact if_pos small

theorem decodeBytes_encodeCharacter (character : Char) (rest : List Char) :
    decodeBytes 0 (encodeCharacter character ++ rest) =
      String.utf8EncodeChar character ++ decodeBytes 0 rest := by
  rw [encodeCharacter]
  split
  · next plain =>
    have noSign : character ≠ '%' := by
      rintro rfl
      cases plain
    rw [utf8EncodeChar_of_isPlain plain, List.singleton_append, decodeBytes, if_neg noSign]
    rfl
  · exact decodeBytes_flatMap_encodeByte _ rest

theorem decodeBytes_encode (characters : List Char) :
    decodeBytes 0 (encode characters) = Utf8.encode characters := by
  induction characters with
  | nil => rfl
  | cons character characters induction =>
      rw [encode, List.flatMap_cons, decodeBytes_encodeCharacter, ← encode, induction]
      rfl

theorem decode_of_isAscii (ascii : ∀ character ∈ text, isAscii character = true) :
    decode text = Utf8.decodeReplacing (decodeBytes 0 text) := by
  cases text with
  | nil => rw [decode, decodeBytes, Utf8.decodeReplacing]
  | cons character text =>
      have asciiRest : ∀ other ∈ text, isAscii other = true := fun other member =>
        ascii other (List.mem_cons_of_mem _ member)
      rw [decode, if_pos (ascii character (List.mem_cons_self ..)),
        List.takeWhile_eq_self_iff.mpr asciiRest, List.dropWhile_eq_nil_iff.mpr asciiRest,
        decode, List.append_nil]

theorem decode_encode (characters : List Char) : decode (encode characters) = characters := by
  have ascii : ∀ character ∈ encode characters, isAscii character = true := fun _ member =>
    decide_eq_true ((isEncoded_encode characters).toNat member).2
  rw [decode_of_isAscii ascii, decodeBytes_encode, Utf8.decodeReplacing_encode]

end Percent

end ServiceModules
