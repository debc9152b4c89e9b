/-!
Cutting a text at every occurrence of a separator, and joining the parts again. A text has one part
more than separators.
-/

namespace ServiceModules

namespace Text

def split (separator : Char) : List Char → List (List Char)
  | [] => [[]]
  | character :: rest =>
    if character = separator then [] :: split separator rest
    else
      match split separator rest with
      | [] => [[character]]
      | part :: parts => (character :: part) :: parts

def join (separator : Char) : List (List Char) → List Char
  | [] => []
  | [part] => part
  | part :: parts => part ++ separator :: join separator parts

end Text

end ServiceModules
