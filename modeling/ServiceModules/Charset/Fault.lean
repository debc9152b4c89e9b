import ServiceModules.Text.Printable
import ServiceModules.Text.Quoted

/-!
What can go wrong between bytes and characters. A decoding fault tells which bytes are no
characters of the encoding, an encoding fault which characters the encoding does not have.
-/

namespace ServiceModules

abbrev Bytes := List UInt8

structure DecodeFault where
  /-- The name of the encoding. -/
  encoding : String
  /-- The first of the faulty bytes. -/
  byte : UInt8
  start : Nat
  count : Nat
  reason : String
deriving DecidableEq, Repr, Inhabited

structure EncodeFault where
  /-- The name of the encoding. -/
  encoding : String
  /-- The first of the characters that cannot be encoded. -/
  character : Char
  start : Nat
  count : Nat
  reason : String
deriving DecidableEq, Repr, Inhabited

/-- The place of a run of `count` items from `start` on, for more than one item. -/
def placeOfRun (start count : Nat) : String :=
  toString start ++ "-" ++ toString (start + count - 1)

namespace DecodeFault

def message (fault : DecodeFault) : String :=
  let subject :=
    if fault.count = 1 then
      "byte 0x" ++ String.ofList (Text.hexadecimal 2 fault.byte.toNat) ++ " in position "
        ++ toString fault.start
    else "bytes in position " ++ placeOfRun fault.start fault.count
  "'" ++ fault.encoding ++ "' codec can't decode " ++ subject ++ ": " ++ fault.reason

end DecodeFault

namespace EncodeFault

def message (fault : EncodeFault) : String :=
  let subject :=
    if fault.count = 1 then
      "character '" ++ String.ofList (Text.escapeCodePoint fault.character) ++ "' in position "
        ++ toString fault.start
    else "characters in position " ++ placeOfRun fault.start fault.count
  "'" ++ fault.encoding ++ "' codec can't encode " ++ subject ++ ": " ++ fault.reason

end EncodeFault

inductive CharsetFault where
  | unknown (name : String)
  /-- The null character occurs in the name of the charset. -/
  | null
  | decode (fault : DecodeFault)
  | encode (fault : EncodeFault)
deriving DecidableEq, Repr, Inhabited

namespace CharsetFault

def message : CharsetFault → String
  | .unknown name => "unknown encoding: " ++ name
  | .null => "embedded null character"
  | .decode fault => fault.message
  | .encode fault => fault.message

end CharsetFault

end ServiceModules
