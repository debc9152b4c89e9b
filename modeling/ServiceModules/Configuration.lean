import ServiceModules.Files.Path
import ServiceModules.Text.Split
import ServiceModules.Variables

/-!
The configuration of a parse: where packages are looked for, the charset of module texts, and
whether documentation is kept.
-/

namespace ServiceModules

structure Configuration where
  packagePaths : List FilePath
  charset : String
  keepsDocumentation : Bool
deriving DecidableEq, Repr

namespace Configuration

def usualCharset : String := "utf-8"

instance : Inhabited Configuration := ⟨⟨[], usualCharset, false⟩⟩

/-- Reads the package paths, which colons separate, and the charset from variables. -/
def ofVariables (settings : Variables) (keepsDocumentation : Bool) : Configuration where
  packagePaths :=
    ((Text.split ':' ((settings.lookup "MODGRAPH_PATH").getD "").toList).filter
      (· ≠ [])).map fun path => .ofText (String.ofList path)
  charset := (settings.nonempty? "MODGRAPH_CHARSET").getD usualCharset
  keepsDocumentation := keepsDocumentation

def withPackagePaths (configuration : Configuration) (paths : List FilePath) : Configuration :=
  { configuration with packagePaths := paths }

end Configuration

end ServiceModules
