import ServiceModules.Uri.Authority

/-!
Identifiers of modules. Of a uniform resource identifier only the scheme and the path matter here.
Blanks and control characters before it are dropped, and so are tabulators and line breaks inside
it. The path ends at a question mark or a number sign; an authority, which begins with two
slashes, is no part of it.
-/

namespace ServiceModules

structure Uri where
  scheme : String
  path : List Char
deriving DecidableEq, Repr, Inhabited

namespace Uri

def isSchemeCharacter (character : Char) : Bool :=
  character.isAlphanum || ['+', '-', '.'].contains character

def isDropped (character : Char) : Bool := ['\t', '\r', '\n'].contains character

def trimmed (text : List Char) : List Char :=
  (text.dropWhile fun character => character.toNat ≤ 32).filter fun character =>
    !isDropped character

def splitScheme (text : List Char) : String × List Char :=
  let scheme := text.takeWhile (· ≠ ':')
  match text.dropWhile (· ≠ ':') with
  | _ :: rest =>
    if (scheme.head?.any Char.isAlpha) && scheme.all isSchemeCharacter then
      (String.ofList (scheme.map Char.toLower), rest)
    else ("", text)
  | [] => ("", text)

def endsAuthority (character : Char) : Bool := ['/', '?', '#'].contains character

def splitAuthority : List Char → List Char × List Char
  | '/' :: '/' :: rest =>
    (rest.takeWhile fun character => !endsAuthority character,
      rest.dropWhile fun character => !endsAuthority character)
  | text => ([], text)

def split (text : String) : Except UriFault Uri :=
  let (scheme, rest) := splitScheme (trimmed text.toList)
  let (authority, rest) := splitAuthority rest
  match Authority.fault? authority with
  | some fault => .error fault
  | none => .ok ⟨scheme, (rest.takeWhile (· ≠ '#')).takeWhile (· ≠ '?')⟩

end Uri

end ServiceModules
