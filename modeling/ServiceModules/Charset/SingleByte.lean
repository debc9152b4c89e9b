import ServiceModules.Charset.Fault

/-!
Encodings in which a byte is the code point of a character, for the first `limit` code points.
-/

namespace ServiceModules

structure SingleByte where
  name : String
  limit : Nat
deriving DecidableEq, Repr, Inhabited

namespace SingleByte

def ascii : SingleByte := ⟨"ascii", 128⟩

def latin1 : SingleByte := ⟨"latin-1", 256⟩

def reason (encoding : SingleByte) : String :=
  "ordinal not in range(" ++ toString encoding.limit ++ ")"

def has (encoding : SingleByte) (character : Char) : Bool := character.toNat < encoding.limit

def decodeFrom (encoding : SingleByte) (offset : Nat) : Bytes → Except DecodeFault (List Char)
  | [] => .ok []
  | byte :: rest =>
    if byte.toNat < encoding.limit then
      (decodeFrom encoding (offset + 1) rest).map (Char.ofNat byte.toNat :: ·)
    else .error ⟨encoding.name, byte, offset, 1, encoding.reason⟩

def decode (encoding : SingleByte) (bytes : Bytes) : Except DecodeFault (List Char) :=
  encoding.decodeFrom 0 bytes

/-- Fails at the first run of characters that the encoding does not have. -/
def encode (encoding : SingleByte) (characters : List Char) : Except EncodeFault Bytes :=
  let known := characters.takeWhile encoding.has
  match characters.dropWhile encoding.has with
  | [] => .ok (known.map fun character => UInt8.ofNat character.toNat)
  | character :: rest =>
    .error
      ⟨encoding.name, character, known.length,
        (rest.takeWhile fun other => !encoding.has other).length + 1, encoding.reason⟩

end SingleByte

end ServiceModules
