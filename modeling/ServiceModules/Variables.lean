/-!
Environment variables: texts by name. A variable that is set twice has its first value.
-/

namespace ServiceModules

abbrev Variables := List (String × String)

namespace Variables

def nonempty? (settings : Variables) (name : String) : Option String :=
  (settings.lookup name).filter (· ≠ "")

/-- Whether the null character, which no value can have, occurs. -/
def haveNull (settings : Variables) : Bool :=
  settings.any fun setting => setting.2.toList.contains '\x00'

def refusals : List String := ["0", "false", "no", "never"]

/-- Diagnostics are painted unless one variable is set to anything or the other one says no. -/
def colorsEnabled (settings : Variables) : Bool :=
  (settings.nonempty? "NO_COLOR").isNone
    && !refusals.contains ((settings.lookup "MODGRAPH_COLOR").getD "").toLower

end Variables

end ServiceModules
