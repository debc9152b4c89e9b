/-!
Painted text. A piece of text has a style; painting it puts the escape sequences of its style
before it and a reset behind it. A piece without a style is never touched.
-/

namespace ServiceModules

inductive Style where
  | bold
  | red
  | blue
  | cyan
deriving DecidableEq, Repr

namespace Style

def number : Style → List Char
  | .bold => ['1']
  | .red => ['3', '1']
  | .blue => ['3', '4']
  | .cyan => ['3', '6']

def escapeCharacter : Char := '\x1b'

def sequence (number : List Char) : List Char := escapeCharacter :: '[' :: number ++ ['m']

def reset : List Char := sequence ['0']

def begin (style : Style) : List Char := sequence style.number

end Style

structure Piece where
  text : List Char
  styles : List Style
deriving DecidableEq, Repr

namespace Piece

def plain (text : List Char) : Piece := ⟨text, []⟩

def paint (color : Bool) (piece : Piece) : List Char :=
  if color && !piece.styles.isEmpty then
    piece.styles.flatMap Style.begin ++ piece.text ++ Style.reset
  else piece.text

def paintLine (color : Bool) (pieces : List Piece) : List Char := pieces.flatMap (paint color)

def paintLines (color : Bool) (lines : List (List Piece)) : List Char :=
  List.intercalate ['\n'] (lines.map (paintLine color))

end Piece

end ServiceModules
