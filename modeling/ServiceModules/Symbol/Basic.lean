import ServiceModules.Program.Basic
import ServiceModules.Source.Location

/-!
Symbols. A module declares symbols and imports symbols of other modules. An import request stands
for everything that a module imports by one path; it is resolved once it has a target, the
identifier of the module that its path leads to.
-/

namespace ServiceModules

structure Symbol where
  name : String
  kind : DeclarationKind
  /-- The identifier of the module that declares the symbol. -/
  moduleUri : String
  location : Option Location
deriving DecidableEq, Repr, Inhabited

namespace Symbol

def describe (symbol : Symbol) : String := symbol.kind.word ++ " " ++ symbol.name

end Symbol

structure ImportedSymbol where
  name : String
  localName : String
  /-- The place in the import statement. -/
  location : Option Location
  /-- The places in the module that refer to the local name. -/
  usages : List Location
deriving DecidableEq, Repr, Inhabited

namespace ImportedSymbol

def sites (symbol : ImportedSymbol) : List Location := symbol.location.toList ++ symbol.usages

end ImportedSymbol

structure ImportRequest where
  path : ImportPath
  symbols : List ImportedSymbol
  /-- The place of the path in the first statement that uses it. -/
  location : Option Location
  target : Option String
deriving DecidableEq, Repr, Inhabited

namespace ImportRequest

def isResolved (request : ImportRequest) : Bool := request.target.isSome

def bind (request : ImportRequest) (target : String) : ImportRequest :=
  { request with target := some target }

end ImportRequest

structure NameClash where
  name : String
  location : Option Location
  previous : Option Location
deriving DecidableEq, Repr, Inhabited

namespace NameClash

def message (clash : NameClash) : String :=
  "the name '" ++ clash.name ++ "' is defined multiple times"

def label (clash : NameClash) : String := "'" ++ clash.name ++ "' redefined here"

def note? (clash : NameClash) : Option String :=
  clash.previous.map fun previous =>
    "previous definition of '" ++ clash.name ++ "' at " ++ previous.text

end NameClash

end ServiceModules
