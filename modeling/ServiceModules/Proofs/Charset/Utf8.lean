import ServiceModules.Charset.Utf8

/-!
Reading UTF-8 back. The bytes of a character are read as this character, whatever bytes follow, so
that a text is read back from its bytes.
-/

namespace ServiceModules

namespace Utf8

variable {first least greatest : UInt8} {number payload : Nat}

theorem toNat_ofNat (small : number < 256) : (UInt8.ofNat number).toNat = number := by
  rw [UInt8.toNat_ofNat']
  omega

/-! ## Bytes that continue a character -/

def continuation (payload : Nat) : UInt8 := UInt8.ofNat (payload % 64 + 128)

theorem toNat_continuation (payload : Nat) : (continuation payload).toNat = payload % 64 + 128 :=
  toNat_ofNat (by omega)

theorem continued_continuation (above : least.toNat ≤ payload % 64 + 128)
    (below : payload % 64 + 128 ≤ greatest.toNat) (count : Nat) (bytes : Bytes) :
    continued least greatest (count + 1) (continuation payload :: bytes) =
      continued 0x80 0xBF count bytes + 1 := by
  rw [continued, if_pos]
  rw [Bool.and_eq_true, decide_eq_true_eq, decide_eq_true_eq, UInt8.le_iff_toNat_le,
    UInt8.le_iff_toNat_le, toNat_continuation]
  exact ⟨above, below⟩

theorem continued_continuations (payloads : List Nat) (rest : Bytes) :
    continued 0x80 0xBF payloads.length (payloads.map continuation ++ rest) =
      payloads.length := by
  induction payloads with
  | nil => rfl
  | cons payload payloads induction =>
      have above : (0x80 : UInt8).toNat ≤ payload % 64 + 128 := Nat.le_add_left ..
      have below : payload % 64 + 128 ≤ (0xBF : UInt8).toNat := by
        show payload % 64 + 128 ≤ 191
        omega
      rw [List.map_cons, List.cons_append, List.length_cons, continued_continuation above below,
        induction]

theorem gather_continuation (gathered payload : Nat) (bytes : Bytes) :
    gather gathered (continuation payload :: bytes) =
      gather (gathered * 64 + payload % 64) bytes := by
  rw [gather, List.foldl_cons, toNat_continuation, gather]
  congr 1
  omega

theorem next_of_following? {payloads : List Nat} (beyond : 0x80 ≤ first.toNat)
    (follows : following? first = some (least, greatest, payloads.length + 1))
    (above : least.toNat ≤ payload % 64 + 128) (below : payload % 64 + 128 ≤ greatest.toNat)
    (gathers : gather (lead first (payloads.length + 1)) ((payload :: payloads).map continuation) =
      number) (rest : Bytes) :
    next first ((payload :: payloads).map continuation ++ rest) =
      .character (Char.ofNat number) (payloads.length + 1) := by
  have notSmall : ¬first < 0x80 := by
    rw [UInt8.lt_iff_toNat_lt]
    exact Nat.not_lt.mpr beyond
  have continues : continued least greatest (payloads.length + 1)
      ((payload :: payloads).map continuation ++ rest) = payloads.length + 1 := by
    rw [List.map_cons, List.cons_append, continued_continuation above below,
      continued_continuations]
  have taken : ((payload :: payloads).map continuation ++ rest).take (payloads.length + 1) =
      (payload :: payloads).map continuation := by
    apply List.take_left'
    rw [List.length_map, List.length_cons]
  rw [next, if_neg notSmall, follows]
  simp only [continues, if_true, taken, gathers]

/-! ## First bytes -/

theorem following?_of_two (low : 0xC2 ≤ first.toNat) (high : first.toNat < 0xE0) :
    following? first = some (0x80, 0xBF, 1) := by
  simp only [following?, UInt8.lt_iff_toNat_lt, UInt8.reduceToNat]
  rw [if_neg (Nat.not_lt.mpr low), if_pos high]

/-- The second byte is narrowed behind two of the first bytes: characters with shorter encodings
and surrogates have none of three bytes. -/
theorem following?_of_three (low : 0xE0 ≤ first.toNat) (high : first.toNat < 0xF0) :
    following? first =
      some (if first.toNat = 0xE0 then 0xA0 else 0x80, if first.toNat = 0xED then 0x9F else 0xBF,
        2) := by
  simp only [following?, UInt8.lt_iff_toNat_lt, ← UInt8.toNat_inj, UInt8.reduceToNat]
  grind

theorem following?_of_four (low : 0xF0 ≤ first.toNat) (high : first.toNat ≤ 0xF4) :
    following? first =
      some (if first.toNat = 0xF0 then 0x90 else 0x80, if first.toNat = 0xF4 then 0x8F else 0xBF,
        3) := by
  simp only [following?, UInt8.lt_iff_toNat_lt, ← UInt8.toNat_inj, UInt8.reduceToNat]
  grind

/-! ## Characters -/

theorem next_of_two (byte : first.toNat = number / 64 + 192) (low : 0x80 ≤ number)
    (high : number < 0x800) (rest : Bytes) :
    next first (continuation number :: rest) = .character (Char.ofNat number) 1 := by
  have follows := @following?_of_two first (by omega) (by omega)
  refine @next_of_following? _ _ _ _ _ [] (by omega) follows ?_ ?_ ?_ rest
  · exact Nat.le_add_left ..
  · show number % 64 + 128 ≤ 191
    omega
  · have leads : lead first 1 = number / 64 := by
      show first.toNat % 32 = number / 64
      omega
    rw [List.map_singleton, List.length_nil, leads, gather_continuation]
    exact Nat.div_add_mod' number 64

theorem next_of_three (byte : first.toNat = number / 4096 + 224) (low : 0x800 ≤ number)
    (high : number < 0x10000) (noSurrogate : number < 0xD800 ∨ 0xDFFF < number) (rest : Bytes) :
    next first (continuation (number / 64) :: continuation number :: rest) =
      .character (Char.ofNat number) 2 := by
  have follows := @following?_of_three first (by omega) (by omega)
  refine @next_of_following? _ _ _ _ _ [number] (by omega) follows ?_ ?_ ?_ rest
  · split
    · show 160 ≤ _
      omega
    · show 128 ≤ _
      omega
  · split
    · show _ ≤ 159
      omega
    · show _ ≤ 191
      omega
  · have leads : lead first 2 = number / 4096 := by
      show first.toNat % 16 = number / 4096
      omega
    rw [List.map_cons, List.map_singleton, List.length_singleton, leads, gather_continuation,
      gather_continuation]
    show (number / 4096 * 64 + number / 64 % 64) * 64 + number % 64 = number
    omega

theorem next_of_four (byte : first.toNat = number / 262144 + 240) (low : 0x10000 ≤ number)
    (high : number < 0x110000) (rest : Bytes) :
    next first (continuation (number / 4096) :: continuation (number / 64) ::
      continuation number :: rest) = .character (Char.ofNat number) 3 := by
  have follows := @following?_of_four first (by omega) (by omega)
  refine @next_of_following? _ _ _ _ _ [number / 64, number] (by omega) follows ?_ ?_ ?_ rest
  · split
    · show 144 ≤ _
      omega
    · show 128 ≤ _
      omega
  · split
    · show _ ≤ 143
      omega
    · show _ ≤ 191
      omega
  · have leads : lead first 3 = number / 262144 := by
      show first.toNat % 8 = number / 262144
      omega
    rw [List.map_cons, List.map_cons, List.map_singleton, List.length_cons, List.length_singleton,
      leads, gather_continuation, gather_continuation, gather_continuation]
    show ((number / 262144 * 64 + number / 4096 % 64) * 64 + number / 64 % 64) * 64
      + number % 64 = number
    omega

theorem next_utf8EncodeChar (character : Char) (rest : Bytes) :
    ∃ first more, String.utf8EncodeChar character = first :: more ∧
      next first (more ++ rest) = .character character more.length := by
  have range : character.val.toNat < 0xD800 ∨
      0xDFFF < character.val.toNat ∧ character.val.toNat < 0x110000 := character.valid
  have again : Char.ofNat character.val.toNat = character := Char.ofNat_toNat character
  simp only [String.utf8EncodeChar]
  generalize character.val.toNat = number at range again ⊢
  subst again
  split
  · next one =>
    refine ⟨_, [], rfl, ?_⟩
    have byte : (UInt8.ofNat number).toNat = number := toNat_ofNat (by omega)
    have small : UInt8.ofNat number < 0x80 := by
      rw [UInt8.lt_iff_toNat_lt, byte]
      exact Nat.lt_succ_of_le one
    rw [next, if_pos small, byte]
    rfl
  · split
    · refine ⟨_, _, rfl, next_of_two ?_ (by omega) (by omega) rest⟩
      rw [toNat_ofNat] <;> omega
    · split
      · refine ⟨_, _, rfl, next_of_three ?_ (by omega) (by omega) (by omega) rest⟩
        rw [toNat_ofNat] <;> omega
      · refine ⟨_, _, rfl, next_of_four ?_ (by omega) (by omega) rest⟩
        rw [toNat_ofNat] <;> omega

/-- A text is read back from its bytes. -/
theorem decodeReplacing_encode (characters : List Char) :
    decodeReplacing (encode characters) = characters := by
  induction characters with
  | nil =>
      show decodeReplacing [] = []
      rw [decodeReplacing]
  | cons character characters induction =>
      rcases next_utf8EncodeChar character (encode characters) with ⟨first, more, bytes, isNext⟩
      rw [encode, List.flatMap_cons, bytes, ← encode, List.cons_append, decodeReplacing, isNext]
      dsimp only
      rw [List.drop_left, induction]

end Utf8

end ServiceModules
