import ServiceModules.Source.Location

/-!
Diagnostics: a message, the place it is about, and what may help the reader. A report adds the
text of the module that the place lies in, as far as it is known.
-/

namespace ServiceModules

structure Diagnostic where
  message : String
  location : Option Location
  code : Option String
  help : Option String
  note : Option String
  label : Option String
deriving DecidableEq, Repr, Inhabited

structure Report where
  diagnostic : Diagnostic
  source : Option String
deriving DecidableEq, Repr, Inhabited

namespace Report

abbrev Sources := List (String × String)

def sources (report : Report) : Sources :=
  match report.diagnostic.location, report.source with
  | some location, some text => [(location.file, text)]
  | _, _ => []

end Report

def Diagnostic.brief (message : String) (location : Option Location) : String :=
  match location with
  | none => message
  | some location => message ++ "\n --> " ++ location.text

end ServiceModules
