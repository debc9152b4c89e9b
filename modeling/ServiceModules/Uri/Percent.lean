import ServiceModules.Charset.Utf8

/-!
Percent encoding. A byte that is not allowed to stand for itself is written as a percent sign and
two hexadecimal digits.
-/

namespace ServiceModules

namespace Percent

def upperDigit (digit : Nat) : Char := (Nat.digitChar digit).toUpper

def encodeByte (byte : UInt8) : List Char :=
  ['%', upperDigit (byte.toNat / 16), upperDigit (byte.toNat % 16)]

def isPlain (character : Char) : Bool :=
  character.isAlphanum || ['_', '.', '-', '~', '/'].contains character

def encodeCharacter (character : Char) : List Char :=
  if isPlain character then [character]
  else (String.utf8EncodeChar character).flatMap encodeByte

def encode (characters : List Char) : List Char := characters.flatMap encodeCharacter

def digitValue? (digit : Char) : Option Nat :=
  if '0' ≤ digit && digit ≤ '9' then some (digit.toNat - '0'.toNat)
  else if 'a' ≤ digit && digit ≤ 'f' then some (digit.toNat - 'a'.toNat + 10)
  else if 'A' ≤ digit && digit ≤ 'F' then some (digit.toNat - 'A'.toNat + 10)
  else none

/-- The byte of an escape sequence that begins here, without its percent sign. -/
def escaped? : List Char → Option UInt8
  | high :: low :: _ =>
    match digitValue? high, digitValue? low with
    | some high, some low => some (UInt8.ofNat (high * 16 + low))
    | _, _ => none
  | _ => none

/-- The bytes of ASCII text; `skipped` counts digits that belong to the escape before them. -/
def decodeBytes (skipped : Nat) : List Char → Bytes
  | [] => []
  | character :: rest =>
    match skipped with
    | skipped + 1 => decodeBytes skipped rest
    | 0 =>
      match if character = '%' then escaped? rest else none with
      | some byte => byte :: decodeBytes 2 rest
      | none => UInt8.ofNat character.toNat :: decodeBytes 0 rest

def isAscii (character : Char) : Bool := character.toNat < 128

/-- Decodes a text. Escapes are bytes of UTF-8, and a character beyond ASCII separates them; a
percent sign without two digits stands for itself. -/
def decode (characters : List Char) : List Char :=
  match characters with
  | [] => []
  | character :: rest =>
    if isAscii character then
      Utf8.decodeReplacing (decodeBytes 0 (character :: rest.takeWhile isAscii))
        ++ decode (rest.dropWhile isAscii)
    else character :: decode rest
termination_by characters.length
decreasing_by
  · have := (List.dropWhile_sublist isAscii (l := rest)).length_le
    simp only [List.length_cons]
    omega
  · simp

end Percent

end ServiceModules
