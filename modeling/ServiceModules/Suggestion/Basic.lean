import ServiceModules.ImportPath
import ServiceModules.Suggestion.Distance
import ServiceModules.Text.Sorted

/-!
Suggestions for an import that leads nowhere. Candidates are names of files; the module that a
file may hold is named by the part of its name before the first dot. A module is suggested when
its name is close to the import path without its leading dots.
-/

namespace ServiceModules

namespace Suggestion

def usualLimit : Nat := 2

def moduleName (fileName : String) : String :=
  String.ofList (fileName.toList.takeWhile (· ≠ '.'))

def modules (candidates : List String) : List String :=
  Text.sortedDistinct ((candidates.map moduleName).filter (· ≠ ""))

def isClose (path : ImportPath) (limit : Nat) (name : String) : Bool :=
  distance path.dottedName.toList name.toList ≤ limit

def suggest (path : ImportPath) (candidates : List String) (limit : Nat) : List String :=
  (modules candidates).filter (isClose path limit)

def help (path : ImportPath) (suggestions modules : List String) : String :=
  if !suggestions.isEmpty then "Maybe you meant: " ++ ", ".intercalate suggestions
  else
    "Could not find modules matching \"" ++ path.text ++ "\""
      ++ if modules.isEmpty then ", and no importable modules were found nearby."
        else ". Here are some modules that can be imported: " ++ ", ".intercalate modules

end Suggestion

end ServiceModules
