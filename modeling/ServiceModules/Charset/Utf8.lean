import ServiceModules.Charset.Fault

/-!
UTF-8. A character takes one to four bytes: the first byte tells how many, and the range of the
second one is narrowed so that no character has two encodings, no surrogate is encoded and no
code point lies beyond the last one. A fault covers the longest run of bytes that begins like a
character, or one byte.
-/

namespace ServiceModules

namespace Utf8

/-- What a sequence of bytes begins with: a character, or bytes that are none. `extra` counts the
bytes behind the first one that belong to it. -/
inductive Unit where
  | character (character : Char) (extra : Nat)
  | malformed (extra : Nat) (reason : String)
deriving DecidableEq, Repr

def invalidStart : String := "invalid start byte"

def invalidContinuation : String := "invalid continuation byte"

def unexpectedEnd : String := "unexpected end of data"

/-- The bytes that may follow a first byte: the least and the greatest second byte, and how many
bytes follow in all. -/
def following? (first : UInt8) : Option (UInt8 × UInt8 × Nat) :=
  if first < 0xC2 then none
  else if first < 0xE0 then some (0x80, 0xBF, 1)
  else if first = 0xE0 then some (0xA0, 0xBF, 2)
  else if first = 0xED then some (0x80, 0x9F, 2)
  else if first < 0xF0 then some (0x80, 0xBF, 2)
  else if first = 0xF0 then some (0x90, 0xBF, 3)
  else if first < 0xF4 then some (0x80, 0xBF, 3)
  else if first = 0xF4 then some (0x80, 0x8F, 3)
  else none

/-- The number of leading `rest` bytes that continue a character, at most `count`. -/
def continued (least greatest : UInt8) : Nat → Bytes → Nat
  | 0, _ => 0
  | _ + 1, [] => 0
  | count + 1, byte :: rest =>
    if least ≤ byte && byte ≤ greatest then continued 0x80 0xBF count rest + 1 else 0

def gather (payload : Nat) (bytes : Bytes) : Nat :=
  bytes.foldl (fun payload byte => payload * 64 + byte.toNat % 64) payload

def lead (first : UInt8) (count : Nat) : Nat := first.toNat % (64 >>> count)

def next (first : UInt8) (rest : Bytes) : Unit :=
  if first < 0x80 then .character (Char.ofNat first.toNat) 0
  else
    match following? first with
    | none => .malformed 0 invalidStart
    | some (least, greatest, count) =>
      let present := continued least greatest count rest
      if present = count then
        .character (Char.ofNat (gather (lead first count) (rest.take count))) count
      else if rest.length ≤ present then .malformed present unexpectedEnd
      else .malformed present invalidContinuation

def encode (characters : List Char) : Bytes := characters.flatMap String.utf8EncodeChar

def decodeFrom (offset : Nat) (bytes : Bytes) : Except DecodeFault (List Char) :=
  match bytes with
  | [] => .ok []
  | first :: rest =>
    match next first rest with
    | .character character extra =>
      (decodeFrom (offset + extra + 1) (rest.drop extra)).map (character :: ·)
    | .malformed extra reason => .error ⟨"utf-8", first, offset, extra + 1, reason⟩
termination_by bytes.length
decreasing_by simp only [List.length_drop, List.length_cons]; omega

def decode (bytes : Bytes) : Except DecodeFault (List Char) := decodeFrom 0 bytes

def replacement : Char := '\uFFFD'

/-- Decodes any bytes: each fault becomes one replacement character. -/
def decodeReplacing (bytes : Bytes) : List Char :=
  match bytes with
  | [] => []
  | first :: rest =>
    match next first rest with
    | .character character extra => character :: decodeReplacing (rest.drop extra)
    | .malformed extra _ => replacement :: decodeReplacing (rest.drop extra)
termination_by bytes.length
decreasing_by all_goals simp only [List.length_drop, List.length_cons]; omega

end Utf8

end ServiceModules
