import ServiceModules.Diagnostic.Render
import ServiceModules.Proofs.Source.Excerpt

/-!
Snippets. Where a location names a character of the text of a report, the rendering shows the line
of this character, and carets below it that begin under the character and end before the line does.
-/

namespace ServiceModules

namespace Piece

@[simp] theorem paint_false (piece : Piece) : piece.paint false = piece.text := by
  simp [paint]

end Piece

namespace Diagnostic

def lines (diagnostic : Diagnostic) (sources : Report.Sources) : List (List Char) :=
  (diagnostic.layout sources).map fun pieces => pieces.flatMap Piece.text

theorem render_false (diagnostic : Diagnostic) (sources : Report.Sources) :
    diagnostic.render sources false =
      String.ofList (List.intercalate ['\n'] (diagnostic.lines sources)) := by
  have plain : Piece.paintLine false = fun pieces : List Piece => pieces.flatMap Piece.text := by
    have text : Piece.paint false = Piece.text := funext Piece.paint_false
    funext pieces
    rw [Piece.paintLine, text]
  rw [render, Piece.paintLines, plain, lines]

def sourceRow (location : Location) (line : List Char) : List Char :=
  gutter location ++ [' ', '|', ' '] ++ line

def caretRow (location : Location) (offset count : Nat) : List Char :=
  List.replicate ((gutter location).length + 1) ' ' ++ ['|', ' '] ++ List.replicate offset ' ' ++
    List.replicate count '^'

/-- Some of the lines are the line of the text and the carets below it, and behind the carets there
is nothing but a label. -/
def Shows (lines : List (List Char)) (location : Location) (line : List Char)
    (offset count : Nat) : Prop :=
  ∃ above label below, lines =
      above ++ sourceRow location line :: (caretRow location offset count ++ label) :: below ∧
    (label = [] ∨ label.head? = some ' ')

def labelText (label : Option String) : List Char :=
  match present? label with
  | some label => ' ' :: label.toList
  | none => []

theorem labelText_cases (label : Option String) :
    labelText label = [] ∨ (labelText label).head? = some ' ' := by
  rw [labelText]
  cases present? label with
  | none => exact .inl rfl
  | some label => exact .inr rfl

/-! ## The texts of the lines -/

def codeText (code : Option String) : List Char :=
  match present? code with
  | some code => '[' :: code.toList ++ [']']
  | none => []

def heading (diagnostic : Diagnostic) : List Char :=
  "error".toList ++ codeText diagnostic.code ++ ": ".toList ++ diagnostic.message.toList

def remarks (diagnostic : Diagnostic) (width : Nat) : List (List Char) :=
  let margin := List.replicate (width + 1) ' '
  if diagnostic.extras.isEmpty then []
  else
    (margin ++ ['|']) :: diagnostic.extras.map fun extra =>
      margin ++ "= ".toList ++ extra.1.toList ++ ": ".toList ++ extra.2.toList

theorem text_headline (diagnostic : Diagnostic) :
    diagnostic.headline.flatMap Piece.text = diagnostic.heading := by
  rw [heading, List.append_assoc]
  exact congrArg _ (List.append_nil _)

theorem texts_extraLines (diagnostic : Diagnostic) (width : Nat) :
    ((diagnostic.extraLines width).map fun pieces => pieces.flatMap Piece.text) =
      diagnostic.remarks width := by
  rw [extraLines, remarks]
  split
  · rfl
  · simp [Piece.plain]

theorem layout_of_sourceLine? {diagnostic : Diagnostic} {sources : Report.Sources}
    {location : Location} {line : List Char} (placed : diagnostic.location = some location)
    (found : sourceLine? sources location = some line) :
    diagnostic.layout sources =
      diagnostic.headline :: snippet diagnostic.label location line ++
        diagnostic.extraLines (gutter location).length := by
  simp only [layout, placed, found]

theorem lines_of_sourceLine? {diagnostic : Diagnostic} {sources : Report.Sources}
    {location : Location} {line : List Char} (placed : diagnostic.location = some location)
    (found : sourceLine? sources location = some line) :
    diagnostic.lines sources =
      diagnostic.heading ::
      (List.replicate (gutter location).length ' ' ++ "--> ".toList ++ location.text.toList) ::
      (List.replicate ((gutter location).length + 1) ' ' ++ ['|']) ::
      sourceRow location line ::
      (caretRow location (caretOffset location) (caretCount location line) ++
        labelText diagnostic.label) ::
      diagnostic.remarks (gutter location).length := by
  rw [lines, layout_of_sourceLine? placed found, List.cons_append, List.map_cons, List.map_append,
    text_headline, texts_extraLines]
  simp only [snippet, sourceRow, caretRow, pointer, Piece.plain, List.map_cons, List.flatMap_cons,
    List.flatMap_nil, List.append_nil, List.append_assoc, List.cons_append, List.nil_append,
    List.map_nil]
  rfl

theorem shows_of_sourceLine? {diagnostic : Diagnostic} {sources : Report.Sources}
    {location : Location} {line : List Char} (placed : diagnostic.location = some location)
    (found : sourceLine? sources location = some line) :
    Shows (diagnostic.lines sources) location line (caretOffset location)
      (caretCount location line) :=
  ⟨[_, _, _], _, _, lines_of_sourceLine? placed found, labelText_cases _⟩

/-! ## Counting carets -/

/-- There is a caret at least, and none stands behind the line, if the location ends behind
characters of the line or tells of no end on it. -/
theorem caretCount_bounds {location : Location} {before tail : List Char}
    (visible : Text.IsVisible tail) (offset : caretOffset location = before.length)
    (ends : location.column < location.endColumn →
      location.endLine = 0 ∨ location.endLine = location.line →
      ∃ piece, piece <+: tail ∧ '\n' ∉ piece ∧
        location.endColumn = location.column + piece.length) :
    1 ≤ caretCount location (before ++ tail.takeWhile (· ≠ '\n')) ∧
      caretCount location (before ++ tail.takeWhile (· ≠ '\n')) ≤
        (tail.takeWhile (· ≠ '\n')).length := by
  have width : 1 ≤ (tail.takeWhile (· ≠ '\n')).length := by
    rcases visible.exists_head with ⟨character, rest, rfl, other⟩
    rw [List.takeWhile_cons, if_pos (decide_eq_true other), List.length_cons]
    omega
  rw [caretCount]
  split
  · next within =>
    simp only [Bool.and_eq_true, Bool.or_eq_true, decide_eq_true_eq] at within
    rcases ends within.1 within.2 with ⟨piece, ⟨rest, rfl⟩, single, stop⟩
    have inside : ∀ character ∈ piece, decide (character ≠ '\n') = true := by
      intro character member
      exact decide_eq_true fun same => single (same ▸ member)
    rw [List.takeWhile_append_of_pos inside, List.length_append]
    omega
  · rw [offset, List.drop_left]
    have shorter : ((tail.takeWhile (· ≠ '\n')).takeWhile fun character =>
        !endsWord character).length ≤ (tail.takeWhile (· ≠ '\n')).length :=
      (List.takeWhile_prefix _).length_le
    omega

theorem exists_carets {location : Location} {text : String} {front tail : List Char}
    (whole : text.toList = front ++ tail) (visible : Text.IsVisible tail)
    (row : location.line = (Position.first.afterAll front).line)
    (column : location.column = (Position.first.afterAll front).column)
    (ends : location.column < location.endColumn →
      location.endLine = 0 ∨ location.endLine = location.line →
      ∃ piece, piece <+: tail ∧ '\n' ∉ piece ∧
        location.endColumn = location.column + piece.length) :
    ∃ line, sourceLine? [(location.file, text)] location = some line ∧
      (Text.split '\n' text.toList)[(location.line - 1).toNat]? = some line ∧
      (caretOffset location : Int) + 1 = location.column ∧ 1 ≤ caretCount location line ∧
      caretOffset location + caretCount location line ≤ line.length := by
  rcases Text.exists_line Position.first front tail with ⟨before, line, placedRow, placedColumn⟩
  have firstRow : location.line = (1 + front.count '\n' : Nat) := by rw [row, placedRow]; rfl
  have firstColumn : location.column = (1 + before.length : Nat) := by
    rw [column, placedColumn]
    split <;> rfl
  have offset : caretOffset location = before.length := by
    rw [caretOffset, firstColumn]
    omega
  have index : (location.line - 1).toNat = front.count '\n' := by omega
  have carets := caretCount_bounds visible offset ends
  have found : (Text.split '\n' text.toList)[(location.line - 1).toNat]? =
      some (before ++ tail.takeWhile (· ≠ '\n')) := by
    rw [index, whole]
    exact line
  refine ⟨before ++ tail.takeWhile (· ≠ '\n'), ?_, found, by omega, carets.1, ?_⟩
  · have positive : 0 < location.line := by omega
    simp only [sourceLine?, List.lookup_cons_self, if_pos positive, found]
  · rw [offset, List.length_append]
    omega

end Diagnostic

end ServiceModules
