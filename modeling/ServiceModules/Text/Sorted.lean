import ServiceModules.Text.Quoted

/-!
Texts in order. Texts are ordered by their code points, and a list of texts is written with every
text quoted.
-/

namespace ServiceModules

namespace Text

def sorted (texts : List String) : List String :=
  texts.mergeSort fun left right => decide (left ≤ right)

def sortedDistinct (texts : List String) : List String := (sorted texts).eraseDups

def quotedList (texts : List String) : String :=
  "[" ++ ", ".intercalate (texts.map fun text => String.ofList (quoted text.toList)) ++ "]"

end Text

end ServiceModules
