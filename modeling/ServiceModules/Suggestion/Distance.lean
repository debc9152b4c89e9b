/-!
Edit distance. One edit inserts, removes or replaces a single character, and the distance of two
texts is the least number of edits that turn one into the other.
-/

namespace ServiceModules

namespace Suggestion

/-- The distances of `character :: rest` to all suffixes of a text, the longest suffix first, from
those of `rest` to the same suffixes. -/
def extend (character : Char) : List Char → List Nat → List Nat
  | letter :: letters, distance :: distances =>
    let later := extend character letters distances
    let best :=
      if character = letter then distances.headD 0
      else 1 + min (distances.headD 0) (min distance (later.headD 0))
    best :: later
  | _, distances => distances.map (· + 1)

def suffixLengths : List Char → List Nat
  | [] => [0]
  | letter :: letters => (letter :: letters).length :: suffixLengths letters

/-- The distances of a text to all suffixes of another one, the longest suffix first. -/
def distances (source target : List Char) : List Nat :=
  match source with
  | [] => suffixLengths target
  | character :: rest => extend character target (distances rest target)

def distance (source target : List Char) : Nat := (distances source target).headD 0

end Suggestion

end ServiceModules
