import ServiceModules.Text.Split
import ServiceModules.Uri.Percent

/-!
Internet addresses. An address of version four has four decimal octets. An address of version six
has eight groups of hexadecimal digits; two colons stand for the groups that are left out, its last
two groups may be written as an address of version four, and a zone may follow a percent sign.
-/

namespace ServiceModules

namespace Address

def isOctet (digits : List Char) : Bool :=
  digits.all Char.isDigit && 0 < digits.length && digits.length ≤ 3
    && (digits.length = 1 || digits.head? ≠ some '0')
    && digits.foldl (fun value digit => value * 10 + (digit.toNat - '0'.toNat)) 0 ≤ 255

def isVersionFour (text : List Char) : Bool :=
  let octets := Text.split '.' text
  octets.length = 4 && octets.all isOctet

def isHexadecimal (digit : Char) : Bool := (Percent.digitValue? digit).isSome

def isGroup (digits : List Char) : Bool :=
  digits.all isHexadecimal && 0 < digits.length && digits.length ≤ 4

/-- The groups of an address whose last two may be written as an address of version four. -/
def groups? (text : List Char) : Option (List (List Char)) :=
  let parts := Text.split ':' text
  let last := parts.getLastD []
  if '.' ∈ last then
    if isVersionFour last then some (parts.dropLast ++ [['0'], ['0']]) else none
  else some parts

def side (groups : List (List Char)) : List (List Char) := if groups = [[]] then [] else groups

/-- Whether the groups make an address; an inner group that is empty stands between two colons. -/
def isWhole (groups : List (List Char)) : Bool :=
  let inner := (groups.drop 1).dropLast
  match inner.findIdx? List.isEmpty with
  | none => groups.length = 8 && groups.all isGroup
  | some place =>
    let left := side (groups.take (place + 1))
    let right := side (groups.drop (place + 2))
    left.length + right.length ≤ 7 && left.all isGroup && right.all isGroup

def isVersionSix (text : List Char) : Bool :=
  let zone := text.dropWhile (· ≠ '%')
  let hasZone := zone = [] || (1 < zone.length && !(zone.drop 1).contains '%')
  hasZone
    && match groups? (text.takeWhile (· ≠ '%')) with
      | none => false
      | some groups => 3 ≤ groups.length && isWhole groups

/-- An address of a later version: the letter, the version, a dot, and something behind it. -/
def isLaterVersion (text : List Char) : Bool :=
  let version := (text.drop 1).takeWhile isHexadecimal
  match (text.drop 1).dropWhile isHexadecimal with
  | '.' :: rest => !version.isEmpty && !rest.isEmpty
  | _ => false

end Address

end ServiceModules
