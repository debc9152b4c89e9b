import ServiceModules.Token.Terminal

/-!
Lexemes. `Terminal.lexeme?` gives the text of a terminal at the beginning of a list of characters,
the longest one where a terminal has many texts. `gap` gives the blanks and line comments that may
stand before any token. A comment begins with two slashes; three slashes begin documentation.
-/

namespace ServiceModules

namespace Lexeme

def isNameStart (character : Char) : Bool :=
  ('a' ≤ character && character ≤ 'z') || ('A' ≤ character && character ≤ 'Z')
    || character = '_'

def isNameCharacter (character : Char) : Bool :=
  isNameStart character || ('0' ≤ character && character ≤ '9')

def isBlank (character : Char) : Bool :=
  character = ' ' || character = '\t' || character = '\x0c' || character = '\r'
    || character = '\n'

def beginsName : List Char → Bool
  | [] => false
  | character :: _ => isNameStart character

def beginsComment : List Char → Bool
  | '/' :: '/' :: '/' :: _ => false
  | '/' :: '/' :: _ => true
  | _ => false

def name? (characters : List Char) : Option (List Char) :=
  if beginsName characters then some (characters.takeWhile isNameCharacter) else none

/-- The rest of a dotted path from inside a name on: a dot belongs to the path only when another
name follows it. -/
def pathTail : List Char → List Char
  | [] => []
  | character :: rest =>
    if isNameCharacter character then character :: pathTail rest
    else if character = '.' && beginsName rest then character :: pathTail rest
    else []

def importPath? (characters : List Char) : Option (List Char) :=
  let dots := characters.takeWhile (· = '.')
  let named := characters.dropWhile (· = '.')
  if beginsName named then some (dots ++ pathTail named) else none

def docComment? : List Char → Option (List Char)
  | '/' :: '/' :: '/' :: rest => some ('/' :: '/' :: '/' :: rest.takeWhile (· ≠ '\n'))
  | _ => none

/-- The blanks and comments at the beginning; `inComment` tells whether a comment is open. -/
def gapFrom (inComment : Bool) : List Char → List Char
  | [] => []
  | character :: rest =>
    if inComment then character :: gapFrom (character ≠ '\n') rest
    else if isBlank character then character :: gapFrom false rest
    else if beginsComment (character :: rest) then character :: gapFrom true rest
    else []

def gap (characters : List Char) : List Char := gapFrom false characters

end Lexeme

namespace Terminal

open Lexeme in
/-- The text of this terminal at the beginning of `characters`. A keyword is matched as it stands,
whatever follows it. -/
def lexeme? (terminal : Terminal) (characters : List Char) : Option (List Char) :=
  match terminal with
  | .name => name? characters
  | .importPath => importPath? characters
  | .docComment => docComment? characters
  | terminal =>
    match terminal.spelling? with
    | some spelling => if spelling.isPrefixOf characters then some spelling else none
    | none => none

end Terminal

end ServiceModules
