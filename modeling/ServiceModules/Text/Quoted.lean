import ServiceModules.Text.Printable

/-!
Quoted text in messages. A text stands between apostrophes, or between quotation marks when it
holds an apostrophe and no quotation mark. The mark itself and the backslash are escaped, line
feed, carriage return and tabulator have their letters, and any other unprintable character is
written as its code point in two, four or eight hexadecimal digits.
-/

namespace ServiceModules

namespace Text

def hexadecimal (width number : Nat) : List Char :=
  match width with
  | 0 => []
  | width + 1 => hexadecimal width (number / 16) ++ [Nat.digitChar (number % 16)]

def escapeCodePoint (character : Char) : List Char :=
  let number := character.toNat
  if number < 256 then '\\' :: 'x' :: hexadecimal 2 number
  else if number < 65536 then '\\' :: 'u' :: hexadecimal 4 number
  else '\\' :: 'U' :: hexadecimal 8 number

def escape (mark character : Char) : List Char :=
  if character = mark || character = '\\' then ['\\', character]
  else if character = '\n' then ['\\', 'n']
  else if character = '\r' then ['\\', 'r']
  else if character = '\t' then ['\\', 't']
  else if isPrintable character then [character]
  else escapeCodePoint character

def quotationMark (characters : List Char) : Char :=
  if '\'' ∈ characters && '"' ∉ characters then '"' else '\''

def quoted (characters : List Char) : List Char :=
  let mark := quotationMark characters
  mark :: characters.flatMap (escape mark) ++ [mark]

end Text

end ServiceModules
