import ServiceModules.Charset.Basic

/-!
Decoding makes no text longer: in every charset a character takes at least one byte.
-/

namespace ServiceModules

variable {bytes : Bytes} {characters : List Char}

theorem length_le_of_map_cons {ε : Type} {decoded : Except ε (List Char)} {character : Char}
    {count : Nat} (succeeded : decoded.map (character :: ·) = .ok characters)
    (behind : ∀ others, decoded = .ok others → others.length ≤ count) :
    characters.length ≤ count + 1 := by
  cases decoded with
  | error fault => cases succeeded
  | ok others =>
      cases succeeded
      exact Nat.succ_le_succ (behind others rfl)

theorem Utf8.length_le_of_decodeFrom {offset : Nat}
    (decoded : decodeFrom offset bytes = .ok characters) : characters.length ≤ bytes.length := by
  fun_induction decodeFrom offset bytes generalizing characters with
  | case1 =>
      cases decoded
      exact Nat.le_refl _
  | case2 offset first rest character extra starts induction =>
      have shorter := length_le_of_map_cons decoded fun _ behind => induction behind
      rw [List.length_drop] at shorter
      rw [List.length_cons]
      omega
  | case3 => cases decoded

theorem Utf16.length_le_of_decodeFrom {order : ByteOrder} {offset : Nat}
    (decoded : decodeFrom order offset bytes = .ok characters) :
    characters.length ≤ bytes.length := by
  fun_induction decodeFrom order offset bytes generalizing characters with
  | case1 =>
      cases decoded
      exact Nat.le_refl _
  | case3 =>
      next induction =>
        have shorter := length_le_of_map_cons decoded fun _ behind => induction behind
        simp only [List.length_cons]
        omega
  | case7 =>
      next induction =>
        have shorter := length_le_of_map_cons decoded fun _ behind => induction behind
        simp only [List.length_cons]
        omega
  | case2 | case4 | case5 | case6 => cases decoded

theorem Utf16.length_le_of_decodeMarked (decoded : decodeMarked bytes = .ok characters) :
    characters.length ≤ bytes.length := by
  rw [decodeMarked.eq_def] at decoded
  split at decoded <;> have shorter := length_le_of_decodeFrom decoded
  · simp only [List.length_cons]
    omega
  · simp only [List.length_cons]
    omega
  · exact shorter

theorem SingleByte.length_le_of_decodeFrom {encoding : SingleByte} {offset : Nat}
    (decoded : encoding.decodeFrom offset bytes = .ok characters) :
    characters.length ≤ bytes.length := by
  induction bytes generalizing offset characters with
  | nil =>
      cases decoded
      exact Nat.le_refl _
  | cons byte rest induction =>
      rw [decodeFrom] at decoded
      split at decoded
      · exact length_le_of_map_cons decoded fun _ behind => induction behind
      · cases decoded

namespace Charset

theorem length_le_of_decode {charset : Charset} (decoded : charset.decode bytes = .ok characters) :
    characters.length ≤ bytes.length := by
  cases charset with
  | utf8 => exact Utf8.length_le_of_decodeFrom decoded
  | utf8Marked =>
      refine Nat.le_trans (Utf8.length_le_of_decodeFrom decoded) ?_
      split
      · rw [List.length_drop]
        exact Nat.sub_le ..
      · exact Nat.le_refl _
  | singleByte encoding => exact SingleByte.length_le_of_decodeFrom decoded
  | utf16Marked => exact Utf16.length_le_of_decodeMarked decoded
  | utf16 order => exact Utf16.length_le_of_decodeFrom decoded

theorem length_le_of_decodeNamed {name text : String}
    (decoded : decodeNamed name bytes = .ok text) :
    text.toList.length ≤ bytes.length := by
  rw [decodeNamed] at decoded
  split at decoded
  · cases decoded
  · split at decoded
    · cases decoded
      exact Nat.zero_le _
    · split at decoded
      · cases decoded
      · next charset _ =>
        cases result : charset.decode bytes with
        | error fault =>
            rw [result] at decoded
            cases decoded
        | ok characters =>
            rw [result] at decoded
            cases decoded
            rw [String.toList_ofList]
            exact length_le_of_decode result

end Charset

end ServiceModules
