import ServiceModules.Source.Position

/-!
A location is a span in a named file, or only its beginning: the end line and the end column are
zero when they are not known. The numbers are integers because a diagnostic may be given a
location that lies in no text at all.
-/

namespace ServiceModules

structure Location where
  file : String
  line : Int
  column : Int
  endLine : Int
  endColumn : Int
deriving DecidableEq, Repr, Inhabited

namespace Location

def ofSpan (file : String) (span : Span) : Location :=
  ⟨file, span.start.line, span.start.column, span.stop.line, span.stop.column⟩

/-- A location of which only the beginning is known. -/
def ofPosition (file : String) (position : Position) : Location :=
  ⟨file, position.line, position.column, 0, 0⟩

def text (location : Location) : String :=
  location.file ++ ":" ++ toString location.line ++ ":" ++ toString location.column

end Location

end ServiceModules
