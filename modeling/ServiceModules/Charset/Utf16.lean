import ServiceModules.Charset.Fault

/-!
UTF-16. A character takes one unit of two bytes, or two units when it lies beyond U+FFFF: the
first unit of such a pair is a high surrogate and the second one a low surrogate.
-/

namespace ServiceModules

inductive ByteOrder where
  | little
  | big
deriving DecidableEq, Repr, Inhabited

namespace ByteOrder

def encodingName : ByteOrder → String
  | .little => "utf-16-le"
  | .big => "utf-16-be"

def unit (order : ByteOrder) (first second : UInt8) : Nat :=
  match order with
  | .little => first.toNat + 256 * second.toNat
  | .big => 256 * first.toNat + second.toNat

def bytes (order : ByteOrder) (unit : Nat) : Bytes :=
  match order with
  | .little => [UInt8.ofNat (unit % 256), UInt8.ofNat (unit / 256)]
  | .big => [UInt8.ofNat (unit / 256), UInt8.ofNat (unit % 256)]

end ByteOrder

namespace Utf16

def isHighSurrogate (unit : Nat) : Bool := 0xD800 ≤ unit && unit < 0xDC00

def isLowSurrogate (unit : Nat) : Bool := 0xDC00 ≤ unit && unit < 0xE000

def byteOrderMark : Nat := 0xFEFF

def units (character : Char) : List Nat :=
  let number := character.toNat
  if number < 0x10000 then [number]
  else [0xD800 + (number - 0x10000) / 0x400, 0xDC00 + (number - 0x10000) % 0x400]

def encode (order : ByteOrder) (characters : List Char) : Bytes :=
  (characters.flatMap units).flatMap order.bytes

def truncated : String := "truncated data"

def unexpectedEnd : String := "unexpected end of data"

def illegalEncoding : String := "illegal encoding"

def illegalSurrogate : String := "illegal UTF-16 surrogate"

def decodeFrom (order : ByteOrder) (offset : Nat) (bytes : Bytes) :
    Except DecodeFault (List Char) :=
  match bytes with
  | [] => .ok []
  | [byte] => .error ⟨order.encodingName, byte, offset, 1, truncated⟩
  | first :: second :: rest =>
    let unit := order.unit first second
    if isHighSurrogate unit then
      match rest with
      | third :: fourth :: others =>
        let low := order.unit third fourth
        if isLowSurrogate low then
          (decodeFrom order (offset + 4) others).map
            (Char.ofNat (0x10000 + (unit - 0xD800) * 0x400 + (low - 0xDC00)) :: ·)
        else .error ⟨order.encodingName, first, offset, 2, illegalSurrogate⟩
      | _ => .error ⟨order.encodingName, first, offset, rest.length + 2, unexpectedEnd⟩
    else if isLowSurrogate unit then
      .error ⟨order.encodingName, first, offset, 2, illegalEncoding⟩
    else (decodeFrom order (offset + 2) rest).map (Char.ofNat unit :: ·)

def decode (order : ByteOrder) (bytes : Bytes) : Except DecodeFault (List Char) :=
  decodeFrom order 0 bytes

/-- Decodes in the byte order that a mark at the beginning tells; without a mark the order is
little. The mark is not part of the text. -/
def decodeMarked (bytes : Bytes) : Except DecodeFault (List Char) :=
  match bytes with
  | 0xFF :: 0xFE :: rest => decodeFrom .little 2 rest
  | 0xFE :: 0xFF :: rest => decodeFrom .big 2 rest
  | _ => decodeFrom .little 0 bytes

def encodeMarked (characters : List Char) : Bytes :=
  ByteOrder.little.bytes byteOrderMark ++ encode .little characters

end Utf16

end ServiceModules
