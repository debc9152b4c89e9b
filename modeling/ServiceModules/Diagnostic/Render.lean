import ServiceModules.Diagnostic.Basic
import ServiceModules.Diagnostic.Style
import ServiceModules.Text.Split

/-!
Rendering a diagnostic. When the text of its file is known and has the line, the line is shown
under a margin as wide as the line number, with carets below the span:

    error[E0583]: module not found
     --> main:1:6
      |
    1 | from util import Item
      |      ^^^^ unresolved import
      |
      = help: maybe you meant another module

Otherwise only the place is named.
-/

namespace ServiceModules

namespace Diagnostic

/-- Characters that end the word that carets stand under when the span is not known. -/
def endsWord (character : Char) : Bool :=
  [' ', '\t', ',', ':', '\x7b', '\x7d', '(', ')'].contains character

def sourceLine? (sources : Report.Sources) (location : Location) : Option (List Char) :=
  match sources.lookup location.file with
  | none => none
  | some text =>
    if 0 < location.line then (Text.split '\n' text.toList)[(location.line - 1).toNat]? else none

def caretOffset (location : Location) : Nat := (max location.column 1 - 1).toNat

/-- The number of carets: the columns of the span if it ends on the line, else the length of the
word that begins at its first column, and at least one. -/
def caretCount (location : Location) (line : List Char) : Nat :=
  if location.column < location.endColumn
      && (location.endLine = 0 || location.endLine = location.line) then
    (location.endColumn - location.column).toNat
  else
    max 1 ((line.drop (caretOffset location)).takeWhile fun character =>
      !endsWord character).length

def pointer (location : Location) (line : List Char) : List Char :=
  List.replicate (caretOffset location) ' ' ++ List.replicate (caretCount location line) '^'

def present? (text : Option String) : Option String := text.filter (· ≠ "")

def headline (diagnostic : Diagnostic) : List Piece :=
  let code :=
    match present? diagnostic.code with
    | some code => '[' :: code.toList ++ [']']
    | none => []
  [⟨"error".toList ++ code, [.bold, .red]⟩,
    ⟨": ".toList ++ diagnostic.message.toList, [.bold]⟩]

def gutter (location : Location) : List Char := (toString location.line).toList

def snippet (label : Option String) (location : Location) (line : List Char) :
    List (List Piece) :=
  let width := (gutter location).length
  let margin := List.replicate (width + 1) ' '
  let labelled :=
    match present? label with
    | some label => ' ' :: label.toList
    | none => []
  [[⟨List.replicate width ' ' ++ "--> ".toList, [.bold, .blue]⟩, .plain location.text.toList],
    [⟨margin ++ ['|'], [.bold, .blue]⟩],
    [⟨gutter location ++ " | ".toList, [.bold, .blue]⟩, .plain line],
    [⟨margin ++ "| ".toList, [.bold, .blue]⟩,
      ⟨pointer location line ++ labelled, [.bold, .red]⟩]]

def extras (diagnostic : Diagnostic) : List (String × String) :=
  [("help", diagnostic.help), ("note", diagnostic.note)].filterMap fun extra =>
    (present? extra.2).map fun text => (extra.1, text)

def extraLines (diagnostic : Diagnostic) (width : Nat) : List (List Piece) :=
  let margin := List.replicate (width + 1) ' '
  if diagnostic.extras.isEmpty then []
  else
    [⟨margin ++ ['|'], [.bold, .blue]⟩] :: diagnostic.extras.map fun extra =>
      [⟨margin ++ "= ".toList, [.bold, .cyan]⟩, ⟨extra.1.toList ++ ": ".toList, [.bold]⟩,
        .plain extra.2.toList]

def layout (diagnostic : Diagnostic) (sources : Report.Sources) : List (List Piece) :=
  let bare (place : String) :=
    diagnostic.headline :: [⟨" --> ".toList, [.bold, .blue]⟩, .plain place.toList]
      :: diagnostic.extraLines 1
  match diagnostic.location with
  | none => bare "<unknown location>"
  | some location =>
    match sourceLine? sources location with
    | none => bare location.text
    | some line =>
      diagnostic.headline :: snippet diagnostic.label location line
        ++ diagnostic.extraLines (gutter location).length

def render (diagnostic : Diagnostic) (sources : Report.Sources) (color : Bool) : String :=
  String.ofList (Piece.paintLines color (diagnostic.layout sources))

end Diagnostic

namespace Report

def render (report : Report) (color : Bool) : String :=
  report.diagnostic.render report.sources color

end Report

end ServiceModules
