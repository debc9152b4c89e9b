import ServiceModules.Text.Quoted
import ServiceModules.Uri.Address

/-!
Authorities of identifiers. An authority is a host, with a user and an at sign before it or a colon
and a port behind it. Where brackets occur in it, the host is an address that is not of version
four; brackets around a host leave room for a port only. A character that would turn into a
delimiter when the authority is normalized must not occur.
-/

namespace ServiceModules

inductive UriFault where
  /-- A bracket lacks its partner, or stands where none may. -/
  | bracket
  /-- What should be an address is none. -/
  | noAddress (host : List Char)
  | bracketedVersionFour
  | laterVersion
  /-- The authority holds a character that normalizes to a delimiter. -/
  | delimiter (authority : List Char)
  /-- The identifier does not name a file. -/
  | notAFile (uri : String)
deriving DecidableEq, Repr, Inhabited

namespace UriFault

def message : UriFault → String
  | .bracket => "Invalid IPv6 URL"
  | .noAddress host =>
    String.ofList (Text.quoted host) ++ " does not appear to be an IPv4 or IPv6 address"
  | .bracketedVersionFour => "An IPv4 address cannot be in brackets"
  | .laterVersion => "IPvFuture address is invalid"
  | .delimiter authority =>
    "netloc '" ++ String.ofList authority
      ++ "' contains invalid characters under NFKC normalization"
  | .notAFile uri => "Not a file URI: " ++ uri

end UriFault

namespace Authority

/-- The code points beyond ASCII whose compatibility decomposition holds a delimiter: a slash, a
question mark, a number sign, an at sign or a colon. -/
def hiddenDelimiters : List Nat :=
  [0x2047, 0x2048, 0x2049, 0x2100, 0x2101, 0x2105, 0x2106, 0x2A74, 0xFE13, 0xFE16, 0xFE55, 0xFE56,
    0xFE5F, 0xFE6B, 0xFF03, 0xFF0F, 0xFF1A, 0xFF1F, 0xFF20]

def hostAndPort (authority : List Char) : List Char :=
  (authority.reverse.takeWhile (· ≠ '@')).reverse

def hostFault? (host : List Char) : Option UriFault :=
  if host.head? = some 'v' then
    if Address.isLaterVersion host then none else some .laterVersion
  else if Address.isVersionFour host then some .bracketedVersionFour
  else if Address.isVersionSix host then none
  else some (.noAddress host)

def placeFault? (place : List Char) : Option UriFault :=
  match place.dropWhile (· ≠ '[') with
  | [] => hostFault? (place.takeWhile (· ≠ ':'))
  | _ :: bracketed =>
    let port := (bracketed.dropWhile (· ≠ ']')).drop 1
    if place.head? ≠ some '[' || port.head?.any (· ≠ ':') then some .bracket
    else hostFault? (bracketed.takeWhile (· ≠ ']'))

def bracketFault? (authority : List Char) : Option UriFault :=
  match authority.contains '[', authority.contains ']' with
  | false, false => none
  | true, true => placeFault? (hostAndPort authority)
  | _, _ => some .bracket

def fault? (authority : List Char) : Option UriFault :=
  match bracketFault? authority with
  | some fault => some fault
  | none =>
    if authority.any fun character => hiddenDelimiters.contains character.toNat then
      some (.delimiter authority)
    else none

end Authority

end ServiceModules
