import ServiceModules.Diagnostic.Render
import ServiceModules.Files.Tree
import ServiceModules.Lookup.Basic
import ServiceModules.Program.Rejection
import ServiceModules.Suggestion.Basic
import ServiceModules.Symbol.Table
import ServiceModules.Uri.Basic

/-!
Faults: everything that can go wrong between a text and the references of its modules. Faults in
the text of a module have a report with an error code; the others have a message, and some of them
a place.
-/

namespace ServiceModules

structure UnlocatedImport where
  missing : MissingModule
  location : Option Location
  /-- The text of the importing module. -/
  text : String
  suggestions : List String
  /-- The modules that could be imported instead. -/
  modules : List String
deriving DecidableEq, Repr, Inhabited

structure UndeclaredSymbol where
  name : String
  location : Option Location
  /-- The module that the import leads to. -/
  moduleUri : String
  path : ImportPath
  /-- The names that the module does declare, in order. -/
  declared : List String
  /-- The text of the importing module. -/
  text : String
deriving DecidableEq, Repr, Inhabited

inductive Fault where
  /-- The text is no program. -/
  | rejected (uri text : String) (rejection : Rejection)
  /-- The bytes are no text in the charset. -/
  | undecodable (uri charset reason : String)
  /-- A name is bound twice. -/
  | clash (clash : NameClash) (text : Option String)
  | unlocated (unlocated : UnlocatedImport)
  | undeclared (undeclared : UndeclaredSymbol)
  /-- An import that led to one module leads to another one now. -/
  | moved (path : ImportPath) (importer found previous : String) (location : Option Location)
  /-- An import has no target yet. -/
  | unresolved (path : ImportPath) (importer : String) (location : Option Location)
  /-- The target of an import is not among the modules. -/
  | absent (target : String) (location : Option Location)
  | binding (fault : BindFault)
  | charset (fault : CharsetFault)
  | file (fault : FileFault)
  | identifier (fault : UriFault)
deriving DecidableEq, Repr

namespace UnlocatedImport

def report (unlocated : UnlocatedImport) : Report where
  diagnostic :=
    { message := unlocated.missing.message
      location := unlocated.location
      code := some "E0583"
      help :=
        some (Suggestion.help unlocated.missing.path unlocated.suggestions unlocated.modules)
      note := none
      label := some "unresolved import" }
  source := some unlocated.text

end UnlocatedImport

namespace UndeclaredSymbol

def help (undeclared : UndeclaredSymbol) : String :=
  "'" ++ undeclared.path.text ++ "' declares"
    ++ if undeclared.declared.isEmpty then " no symbols"
      else ": " ++ ", ".intercalate undeclared.declared

def report (undeclared : UndeclaredSymbol) : Report where
  diagnostic :=
    { message :=
        "symbol '" ++ undeclared.name ++ "' is not declared in module '" ++ undeclared.moduleUri
          ++ "'"
      location := undeclared.location
      code := some "E0432"
      help := some undeclared.help
      note := none
      label := some ("no '" ++ undeclared.name ++ "' in '" ++ undeclared.path.text ++ "'") }
  source := some undeclared.text

end UndeclaredSymbol

namespace NameClash

def report (clash : NameClash) (text : Option String) : Report where
  diagnostic :=
    { message := clash.message
      location := clash.location
      code := some "E0428"
      help := none
      note := clash.note?
      label := some clash.label }
  source := text

end NameClash

namespace Rejection

def location (uri : String) : Rejection → Location
  | .unexpectedToken _ span _ => .ofSpan uri span
  | .unexpectedCharacter _ position => .ofPosition uri position
  | .unexpectedEnd lastToken _ => .ofSpan uri lastToken

def report (uri text : String) (rejection : Rejection) : Report where
  diagnostic :=
    { message := rejection.message
      location := some (rejection.location uri)
      code := some "E0001"
      help := none
      note := rejection.note?
      label := none }
  source := some text

end Rejection

namespace Fault

def undecodableReport (charset reason : String) : Report where
  diagnostic :=
    { message := "Cannot decode module with charset '" ++ charset ++ "': " ++ reason
      location := none
      code := some "E0001"
      help := none
      note := none
      label := none }
  source := none

def report? : Fault → Option Report
  | .rejected uri text rejection => some (rejection.report uri text)
  | .undecodable _ encoding reason => some (undecodableReport encoding reason)
  | .clash nameClash text => some (nameClash.report text)
  | .unlocated request => some request.report
  | .undeclared symbol => some symbol.report
  | _ => none

def message : Fault → String
  | .rejected uri text rejection => (rejection.report uri text).diagnostic.message
  | .undecodable _ encoding reason => (undecodableReport encoding reason).diagnostic.message
  | .clash nameClash _ => nameClash.message
  | .unlocated request => request.missing.message
  | .undeclared symbol => symbol.report.diagnostic.message
  | .moved path importer found previous _ =>
    "Import '" ++ path.text ++ "' in " ++ importer ++ " now resolves to " ++ found
      ++ ", previously " ++ previous
  | .unresolved path importer _ =>
    "Import '" ++ path.text ++ "' in " ++ importer
      ++ " was never located; crawl before resolving"
  | .absent target _ => "Module " ++ target ++ " is missing from the crawl result"
  | .binding fault => fault.message
  | .charset fault => fault.message
  | .file fault => fault.message
  | .identifier fault => fault.message

def location? : Fault → Option Location
  | .moved _ _ _ _ location => location
  | .unresolved _ _ location => location
  | .absent _ location => location
  | fault => fault.report?.bind fun report => report.diagnostic.location

end Fault

end ServiceModules
