import ServiceModules.Charset.SingleByte
import ServiceModules.Charset.Utf16
import ServiceModules.Charset.Utf8

/-!
Charsets by name: UTF-8 with and without a mark, Latin-1, ASCII and UTF-16. Any other charset that a
system may have is left out, so that its name is unknown here. Upper and lower case are the same in
a name, and so are all runs of characters that are neither letters, digits nor dots.
-/

namespace ServiceModules

inductive Charset where
  | utf8
  /-- UTF-8 behind a byte order mark, which may be missing. -/
  | utf8Marked
  | singleByte (encoding : SingleByte)
  /-- UTF-16 in the byte order of its mark. -/
  | utf16Marked
  | utf16 (order : ByteOrder)
deriving DecidableEq, Repr, Inhabited

namespace Charset

/-! Names are compared in lower case, with one underscore for every run of punctuation. -/

def isNameCharacter (character : Char) : Bool := character.isAlphanum || character = '.'

def normalizeFrom (pending : Bool) : List Char → List Char
  | [] => []
  | character :: rest =>
    if isNameCharacter character then
      (if pending then ['_'] else []) ++ character.toLower :: normalizeFrom false rest
    else normalizeFrom true rest

def normalize (name : String) : String :=
  String.ofList (normalizeFrom false (name.toList.dropWhile fun character =>
    !isNameCharacter character))

def names : List (Charset × List String) :=
  [(.utf8, ["utf_8"]), (.utf8Marked, ["utf_8_sig"]), (.singleByte .latin1, ["latin_1"]),
    (.singleByte .ascii, ["ascii"]), (.utf16Marked, ["utf_16"]), (.utf16 .little, ["utf_16_le"]),
    (.utf16 .big, ["utf_16_be"])]

/-- Other names of the charsets, in which a dot may stand for an underscore. -/
def aliases : List (Charset × List String) :=
  [(.utf8, ["utf8", "u8", "utf", "utf8_ucs2", "utf8_ucs4", "cp65001"]),
    (.singleByte .latin1,
      ["latin1", "latin", "l1", "iso_8859_1", "iso8859_1", "iso8859", "8859", "cp819",
        "csisolatin1", "ibm819", "iso_8859_1_1987", "iso_ir_100"]),
    (.singleByte .ascii,
      ["us_ascii", "us", "646", "ansi_x3.4_1968", "ansi_x3_4_1968", "ansi_x3.4_1986", "cp367",
        "csascii", "ibm367", "iso646_us", "iso_646.irv_1991", "iso_ir_6"]),
    (.utf16Marked, ["utf16", "u16"]),
    (.utf16 .little, ["utf_16le", "unicodelittleunmarked"]),
    (.utf16 .big, ["utf_16be", "unicodebigunmarked"])]

def find? (table : List (Charset × List String)) (name : String) : Option Charset :=
  (table.find? fun entry => entry.2.contains name).map Prod.fst

def withoutDots (name : String) : String :=
  String.ofList (name.toList.map fun character => if character = '.' then '_' else character)

def ofName? (name : String) : Option Charset :=
  let normal := normalize name
  (find? names normal).or ((find? aliases normal).or (find? aliases (withoutDots normal)))

def hasNull (name : String) : Bool := name.toList.contains '\x00'

def utf8Mark : Bytes := [0xEF, 0xBB, 0xBF]

def decode (charset : Charset) (bytes : Bytes) : Except DecodeFault (List Char) :=
  match charset with
  | .utf8 => Utf8.decode bytes
  | .utf8Marked =>
    Utf8.decode (if utf8Mark.isPrefixOf bytes then bytes.drop utf8Mark.length else bytes)
  | .singleByte encoding => encoding.decode bytes
  | .utf16Marked => Utf16.decodeMarked bytes
  | .utf16 order => Utf16.decode order bytes

def encode (charset : Charset) (characters : List Char) : Except EncodeFault Bytes :=
  match charset with
  | .utf8 => .ok (Utf8.encode characters)
  | .utf8Marked => .ok (utf8Mark ++ Utf8.encode characters)
  | .singleByte encoding => encoding.encode characters
  | .utf16Marked => .ok (Utf16.encodeMarked characters)
  | .utf16 order => .ok (Utf16.encode order characters)

/-- Decodes with the charset of the given name. No bytes are no characters in any charset, so
that an unknown name is a fault only when there are bytes. -/
def decodeNamed (name : String) (bytes : Bytes) : Except CharsetFault String :=
  if hasNull name then .error .null
  else if bytes.isEmpty then .ok ""
  else
    match ofName? name with
    | none => .error (.unknown name)
    | some charset => ((charset.decode bytes).mapError .decode).map String.ofList

def encodeNamed (name : String) (text : String) : Except CharsetFault Bytes :=
  if hasNull name then .error .null
  else
    match ofName? name with
    | none => .error (.unknown name)
    | some charset => (charset.encode text.toList).mapError .encode

end Charset

/-! Content of a module as it is handed in: a text, or the bytes of one. -/

inductive Content where
  | text (characters : String)
  | bytes (encoded : Bytes)
deriving DecidableEq, Repr, Inhabited

namespace Content

def decode (content : Content) (charset : String) : Except CharsetFault String :=
  match content with
  | .text characters => .ok characters
  | .bytes encoded => Charset.decodeNamed charset encoded

def encode (content : Content) (charset : String) : Except CharsetFault Bytes :=
  match content with
  | .text characters => Charset.encodeNamed charset characters
  | .bytes encoded => .ok encoded

end Content

end ServiceModules
