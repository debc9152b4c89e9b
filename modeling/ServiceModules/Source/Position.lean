/-!
Places in a module text. Lines and columns count from one, a column counts one character, and
only a line feed ends a line, so a carriage return takes a column like any other character.
-/

namespace ServiceModules

structure Position where
  line : Nat
  column : Nat
deriving DecidableEq, Repr, Inhabited

namespace Position

def first : Position := ⟨1, 1⟩

def after (position : Position) (character : Char) : Position :=
  if character = '\n' then ⟨position.line + 1, 1⟩ else ⟨position.line, position.column + 1⟩

def afterAll (position : Position) (characters : List Char) : Position :=
  characters.foldl after position

@[simp] theorem afterAll_nil (position : Position) : position.afterAll [] = position := rfl

@[simp] theorem afterAll_cons (position : Position) (character : Char) (rest : List Char) :
    position.afterAll (character :: rest) = (position.after character).afterAll rest := rfl

theorem afterAll_append (position : Position) (left right : List Char) :
    position.afterAll (left ++ right) = (position.afterAll left).afterAll right := by
  simp [afterAll, List.foldl_append]

end Position

/-! A span runs from the place of its first character to the place just after its last one. -/

structure Span where
  start : Position
  stop : Position
deriving DecidableEq, Repr, Inhabited

namespace Span

/-- The smallest span that begins with `left` and ends with `right`. -/
def upTo (left right : Span) : Span := ⟨left.start, right.stop⟩

def ofText (position : Position) (characters : List Char) : Span :=
  ⟨position, position.afterAll characters⟩

end Span

end ServiceModules
