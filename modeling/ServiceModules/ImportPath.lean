import ServiceModules.Text.Split

/-!
Import paths. A path is written as a number of dots and then dotted parts: `a.b` is absolute,
`..a` climbs one package above the package of the module that imports it.
Reading and writing are inverse, so two paths are equal exactly when they are written alike.
-/

namespace ServiceModules

structure ImportPath where
  level : Nat
  parts : List String
deriving DecidableEq, Repr, Inhabited

namespace ImportPath

def ofText (text : String) : ImportPath :=
  let named := text.toList.dropWhile (· = '.')
  { level := (text.toList.takeWhile (· = '.')).length
    parts := if named = [] then [] else (Text.split '.' named).map String.ofList }

def isRelative (path : ImportPath) : Bool := 0 < path.level

def dottedName (path : ImportPath) : String :=
  String.ofList (Text.join '.' (path.parts.map String.toList))

def text (path : ImportPath) : String :=
  String.ofList (List.replicate path.level '.') ++ path.dottedName

end ImportPath

end ServiceModules
