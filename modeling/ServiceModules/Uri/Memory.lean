import ServiceModules.Uri.Basic

/-!
Identifiers of modules that are held in memory. The module `a.b` has the identifier
`memory:///a/b.mg`.
-/

namespace ServiceModules

def moduleExtension : String := ".mg"

namespace Uri

def memoryScheme : String := "memory"

def exchange (old new : Char) (text : List Char) : List Char :=
  text.map fun character => if character = old then new else character

def ofModuleName (name : String) : String :=
  memoryScheme ++ ":///" ++ String.ofList (exchange '.' '/' name.toList) ++ moduleExtension

def moduleName? (uri : String) : Except UriFault (Option String) :=
  (split uri).map fun parts =>
    if parts.scheme = memoryScheme && moduleExtension.toList.isSuffixOf parts.path then
      let name := parts.path.dropWhile (· = '/')
      some (String.ofList (exchange '/' '.' (name.take (name.length - moduleExtension.length))))
    else none

end Uri

end ServiceModules
