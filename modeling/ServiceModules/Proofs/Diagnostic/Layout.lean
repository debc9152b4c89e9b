import Mathlib.Data.List.Basic
import ServiceModules.Proofs.Diagnostic.Color

/-!
What a rendering shows. When the line of a location is known, it stands in the rendering as it is,
with carets right below the characters of the span. Otherwise only the place is named. Colors are
added to this and nothing else.
-/

namespace ServiceModules

namespace Diagnostic

open Style

variable {diagnostic : Diagnostic} {sources : Report.Sources} {location : Location}
  {line : List Char}

/-! ## Lines and texts -/

def texts (diagnostic : Diagnostic) : List String :=
  [some diagnostic.message, diagnostic.location.map Location.file, diagnostic.code,
    diagnostic.help, diagnostic.note, diagnostic.label].filterMap id

/-- The line is the one of the location, in the text of its file. -/
def IsLineOf (sources : Report.Sources) (location : Location) (line : List Char) : Prop :=
  ∃ (text : String) (index : Nat), sources.lookup location.file = some text ∧
    location.line = index + 1 ∧ (Text.split '\n' text.toList)[index]? = some line

structure IsUncolored (diagnostic : Diagnostic) (sources : Report.Sources) : Prop where
  texts : ∀ text ∈ diagnostic.texts, escapeCharacter ∉ text.toList
  line : ∀ location line, diagnostic.location = some location → IsLineOf sources location line →
    escapeCharacter ∉ line

theorem sourceLine?_eq_some_iff :
    sourceLine? sources location = some line ↔ IsLineOf sources location line := by
  rw [sourceLine?]
  constructor
  · intro found
    split at found
    · cases found
    · next text known =>
      split at found
      · next positive =>
        exact ⟨text, (location.line - 1).toNat, known, by omega, found⟩
      · cases found
  · rintro ⟨text, index, known, row, found⟩
    have positive : 0 < location.line := by omega
    have place : (location.line - 1).toNat = index := by omega
    simp only [known, if_pos positive, place, found]

theorem eq_some_of_present? {text : Option String} {given : String}
    (present : present? text = some given) : text = some given := by
  rw [present?, Option.filter_eq_some_iff] at present
  exact present.1

theorem not_mem_toString {character : Char} (other : character.isDigit = false)
    (unsigned : character ≠ '-') (number : Int) : character ∉ (toString number).toList := by
  have digits (number : Nat) : character ∉ number.repr.toList := by
    intro member
    rw [Nat.toList_repr] at member
    have digit := Nat.isDigit_of_mem_toDigits (by decide) (by decide) member
    rw [other] at digit
    cases digit
  cases number with
  | ofNat number => exact digits number
  | negSucc number =>
      have whole : (toString (Int.negSucc number)).toList = '-' :: (number + 1).repr.toList := by
        show ("-" ++ (number + 1).repr).toList = _
        rw [String.toList_append]
        rfl
      rw [whole]
      exact List.not_mem_cons_of_ne_of_not_mem unsigned (digits _)

/-! ## Without a line -/

def place (diagnostic : Diagnostic) : String :=
  match diagnostic.location with
  | none => "<unknown location>"
  | some location => location.text

def bare (diagnostic : Diagnostic) : List (List Piece) :=
  diagnostic.headline :: [⟨" --> ".toList, [.bold, .blue]⟩, .plain diagnostic.place.toList] ::
    diagnostic.extraLines 1

/-- No line of a known text is the one of the diagnostic. -/
def IsNowhere (diagnostic : Diagnostic) (sources : Report.Sources) : Prop :=
  ∀ location line, diagnostic.location = some location → ¬ IsLineOf sources location line

theorem layout_of_isNowhere (nowhere : diagnostic.IsNowhere sources) :
    diagnostic.layout sources = diagnostic.bare := by
  cases located : diagnostic.location with
  | none => simp only [layout, bare, place, located]
  | some location =>
      cases found : sourceLine? sources location with
      | some line => exact absurd (sourceLine?_eq_some_iff.mp found) (nowhere location line located)
      | none => simp only [layout, bare, place, located, found]

/-! ## Escape characters -/

theorem escape_not_mem_replicate {character : Char} (other : character ≠ escapeCharacter)
    (count : Nat) : escapeCharacter ∉ List.replicate count character :=
  fun member => other (List.eq_of_mem_replicate member).symm

def ArePlain (lines : List (List Piece)) : Prop :=
  ∀ pieces ∈ lines, ∀ piece ∈ pieces, escapeCharacter ∉ piece.text

theorem ArePlain.append {lines more : List (List Piece)} (plain : ArePlain lines)
    (plainMore : ArePlain more) : ArePlain (lines ++ more) := by
  intro pieces isRow
  rcases List.mem_append.mp isRow with isRow | isRow
  · exact plain pieces isRow
  · exact plainMore pieces isRow

section

variable (plain : ∀ text ∈ diagnostic.texts, escapeCharacter ∉ text.toList)
include plain

theorem escape_not_mem_present {text : Option String} {given : String}
    (isText : text ∈ [diagnostic.code, diagnostic.help, diagnostic.note, diagnostic.label])
    (present : present? text = some given) : escapeCharacter ∉ given.toList := by
  have some := eq_some_of_present? present
  apply plain
  simp only [List.mem_cons, List.not_mem_nil, or_false] at isText
  rcases isText with rfl | rfl | rfl | rfl <;> simp [texts, some]

theorem escape_not_mem_location (located : diagnostic.location = some location) :
    escapeCharacter ∉ location.text.toList := by
  have file : escapeCharacter ∉ location.file.toList := plain _ (by simp [texts, located])
  have row := @not_mem_toString escapeCharacter (by decide) (by decide) location.line
  have column := @not_mem_toString escapeCharacter (by decide) (by decide) location.column
  simp only [Location.text, String.toList_append, List.mem_append, not_or]
  exact ⟨⟨⟨⟨file, by decide⟩, row⟩, by decide⟩, column⟩

theorem escape_not_mem_extra {extra : String × String} (isExtra : extra ∈ diagnostic.extras) :
    escapeCharacter ∉ extra.1.toList ∧ escapeCharacter ∉ extra.2.toList := by
  rw [extras] at isExtra
  obtain ⟨given, isGiven, present⟩ := List.mem_filterMap.mp isExtra
  obtain ⟨text, isText, rfl⟩ := Option.map_eq_some_iff.mp present
  have help : escapeCharacter ∉ "help".toList := by decide
  have note : escapeCharacter ∉ "note".toList := by decide
  simp only [List.mem_cons, List.not_mem_nil, or_false] at isGiven
  rcases isGiven with rfl | rfl
  · exact ⟨help, escape_not_mem_present plain (by simp) isText⟩
  · exact ⟨note, escape_not_mem_present plain (by simp) isText⟩

theorem escape_not_mem_codeText : escapeCharacter ∉ codeText diagnostic.code := by
  rw [codeText]
  split
  · next code present =>
    have inside := escape_not_mem_present plain (by simp) present
    exact List.not_mem_append (List.not_mem_cons_of_ne_of_not_mem (by decide) inside) (by decide)
  · exact List.not_mem_nil

theorem escape_not_mem_labelText : escapeCharacter ∉ labelText diagnostic.label := by
  rw [labelText]
  split
  · next label present =>
    have inside := escape_not_mem_present plain (by simp) present
    exact List.not_mem_cons_of_ne_of_not_mem (by decide) inside
  · exact List.not_mem_nil

theorem arePlain_headline : ArePlain [diagnostic.headline] := by
  have message : escapeCharacter ∉ diagnostic.message.toList := plain _ (by simp [texts])
  intro pieces isHeadline piece isPiece
  rw [List.mem_singleton.mp isHeadline, headline] at isPiece
  simp only [List.mem_cons, List.not_mem_nil, or_false] at isPiece
  rcases isPiece with rfl | rfl
  · exact List.not_mem_append (by decide) (escape_not_mem_codeText plain)
  · exact List.not_mem_append (by decide) message

theorem arePlain_snippet (located : diagnostic.location = some location)
    (plainLine : escapeCharacter ∉ line) :
    ArePlain (snippet diagnostic.label location line) := by
  have blanks := @escape_not_mem_replicate ' ' (by decide)
  have carets := @escape_not_mem_replicate '^' (by decide)
  intro pieces isRow piece isPiece
  simp only [snippet, List.mem_cons, List.not_mem_nil, or_false] at isRow
  rcases isRow with rfl | rfl | rfl | rfl <;>
    simp only [List.mem_cons, List.not_mem_nil, or_false] at isPiece
  · rcases isPiece with rfl | rfl
    · exact List.not_mem_append (blanks _) (by decide)
    · exact escape_not_mem_location plain located
  · rw [isPiece]
    exact List.not_mem_append (blanks _) (by decide)
  · rcases isPiece with rfl | rfl
    · exact List.not_mem_append (not_mem_toString (by decide) (by decide) location.line) (by decide)
    · exact plainLine
  · rcases isPiece with rfl | rfl
    · exact List.not_mem_append (blanks _) (by decide)
    · exact List.not_mem_append (List.not_mem_append (blanks _) (carets _))
        (escape_not_mem_labelText plain)

theorem arePlain_extraLines (width : Nat) : ArePlain (diagnostic.extraLines width) := by
  have blanks := @escape_not_mem_replicate ' ' (by decide) (width + 1)
  intro pieces isRow piece isPiece
  rw [extraLines] at isRow
  split at isRow
  · cases isRow
  · rcases List.mem_cons.mp isRow with rfl | isRow
    · rw [List.mem_singleton.mp isPiece]
      exact List.not_mem_append blanks (by decide)
    · obtain ⟨extra, isExtra, rfl⟩ := List.mem_map.mp isRow
      obtain ⟨named, text⟩ := escape_not_mem_extra plain isExtra
      simp only [List.mem_cons, List.not_mem_nil, or_false] at isPiece
      rcases isPiece with rfl | rfl | rfl
      · exact List.not_mem_append blanks (by decide)
      · exact List.not_mem_append named (by decide)
      · exact text

theorem arePlain_bare : ArePlain diagnostic.bare := by
  have plainPlace : escapeCharacter ∉ diagnostic.place.toList := by
    rw [place]
    split
    · decide
    · next location located => exact escape_not_mem_location plain located
  have row : ArePlain [[⟨" --> ".toList, [.bold, .blue]⟩, .plain diagnostic.place.toList]] := by
    intro pieces isRow piece isPiece
    rw [List.mem_singleton.mp isRow] at isPiece
    simp only [List.mem_cons, List.not_mem_nil, or_false] at isPiece
    rcases isPiece with rfl | rfl
    · decide
    · exact plainPlace
  exact ((arePlain_headline plain).append row).append (arePlain_extraLines plain 1)

end

theorem arePlain_layout (plain : diagnostic.IsUncolored sources) :
    ArePlain (diagnostic.layout sources) := by
  by_cases shown : ∃ location line, diagnostic.location = some location ∧
      IsLineOf sources location line
  · obtain ⟨location, line, located, isLine⟩ := shown
    rw [layout_of_sourceLine? located (sourceLine?_eq_some_iff.mpr isLine)]
    have plainLine := plain.line location line located isLine
    exact ((arePlain_headline plain.texts).append
      (arePlain_snippet plain.texts located plainLine)).append (arePlain_extraLines plain.texts _)
  · have nowhere : diagnostic.IsNowhere sources :=
      fun location line located isLine => shown ⟨location, line, located, isLine⟩
    rw [layout_of_isNowhere nowhere]
    exact arePlain_bare plain.texts

theorem strip_render (plain : diagnostic.IsUncolored sources) :
    strip (diagnostic.render sources true).toList = (diagnostic.render sources false).toList := by
  rw [render, render, String.toList_ofList, String.toList_ofList]
  exact Piece.strip_paintLines (arePlain_layout plain)

/-! ## Carets -/

/-- The location tells where its span ends, and the end is on its line. -/
def HasWidth (location : Location) : Prop :=
  location.column < location.endColumn ∧
    (location.endLine = 0 ∨ location.endLine = location.line)

/-- The text begins with a word of this length, which goes on to the next character that ends a word
or to the end of the text. -/
def BeginsWithWord (text : List Char) (length : Nat) : Prop :=
  ∃ word behind, text = word ++ behind ∧ word.length = length ∧
    (∀ character ∈ word, endsWord character = false) ∧
    ∀ character ∈ behind.head?, endsWord character = true

/-- The location is about `count` characters, and `offset` characters of the line stand before
them. -/
structure Marks (location : Location) (line : List Char) (offset count : Nat) : Prop where
  first : (offset : Int) = max location.column 1 - 1
  span : HasWidth location → (count : Int) = location.endColumn - location.column
  word : ¬ HasWidth location →
    ∃ length, BeginsWithWord (line.drop offset) length ∧ count = max 1 length

/-- The row is the line behind its number, and of the row below, `count` carets are the first ones:
they begin under the character of the line that `offset` characters stand before. -/
structure LinesUp (number : Int) (line row below : List Char) (offset count : Nat) : Prop where
  source : row = (toString number).toList ++ " | ".toList ++ line
  single : '\n' ∉ row
  first : below.idxOf '^' = ((toString number).toList ++ " | ".toList).length + offset
  carets : ((below.drop (below.idxOf '^')).takeWhile fun character => character = '^').length =
    count

def arrowRows (location : Location) : List (List Char) :=
  [List.replicate (gutter location).length ' ' ++ "--> ".toList ++ location.text.toList,
    List.replicate ((gutter location).length + 1) ' ' ++ ['|']]

/-- What a rendering of a diagnostic is like, with these texts of files at hand. -/
structure RendersFaithfully (diagnostic : Diagnostic) (sources : Report.Sources) : Prop where
  stripped : diagnostic.IsUncolored sources →
    strip (diagnostic.render sources true).toList = (diagnostic.render sources false).toList
  shown : ∀ location line, diagnostic.location = some location → IsLineOf sources location line →
    ∃ row below offset count,
      (diagnostic.render sources false).toList = List.intercalate ['\n']
        (diagnostic.heading :: arrowRows location ++
          row :: below :: diagnostic.remarks (gutter location).length) ∧
      LinesUp location.line line row below offset count ∧ Marks location line offset count
  bare : diagnostic.IsNowhere sources →
    (diagnostic.render sources false).toList = List.intercalate ['\n']
      (diagnostic.heading :: (" --> ".toList ++ diagnostic.place.toList) :: diagnostic.remarks 1)

theorem beginsWithWord_takeWhile (text : List Char) :
    BeginsWithWord text (text.takeWhile fun character => !endsWord character).length := by
  refine ⟨_, _, List.takeWhile_append_dropWhile.symm, rfl, ?_, ?_⟩
  · intro character member
    simpa using List.mem_takeWhile_imp member
  · intro character isHead
    have stops := List.head?_dropWhile_not (fun character => !endsWord character) text
    rw [Option.mem_def] at isHead
    simpa [isHead] using stops

theorem one_le_caretCount (location : Location) (line : List Char) :
    1 ≤ caretCount location line := by
  rw [caretCount]
  split
  · next within =>
    simp only [Bool.and_eq_true, decide_eq_true_eq] at within
    omega
  · exact Nat.le_max_left ..

theorem marks_carets (location : Location) (line : List Char) :
    Marks location line (caretOffset location) (caretCount location line) where
  first := by
    rw [caretOffset]
    omega
  span := by
    intro width
    rw [caretCount, if_pos (by simpa [HasWidth] using width)]
    have longer := width.1
    omega
  word := by
    intro unknown
    rw [caretCount, if_neg (by simpa [HasWidth] using unknown)]
    exact ⟨_, beginsWithWord_takeWhile _, rfl⟩

theorem idxOf_caretRow {count : Nat} (location : Location) (offset : Nat) (label : List Char)
    (positive : 1 ≤ count) :
    (caretRow location offset count ++ label).idxOf '^' =
      (gutter location).length + 3 + offset := by
  have absent : '^' ∉ List.replicate ((gutter location).length + 1) ' ' ++ ['|', ' '] ++
      List.replicate offset ' ' := by
    simp
  have first : (List.replicate count '^' ++ label).idxOf '^' = 0 := by
    obtain ⟨more, rfl⟩ := Nat.exists_eq_add_of_le' positive
    exact List.idxOf_cons_self
  rw [caretRow, List.append_assoc, List.idxOf_append_of_notMem absent, first,
    Nat.add_zero]
  simp only [List.length_append, List.length_replicate, List.length_cons, List.length_nil]

theorem takeWhile_carets {label : List Char} (separate : label = [] ∨ label.head? = some ' ')
    (count : Nat) :
    (List.replicate count '^' ++ label).takeWhile (fun character => character = '^') =
      List.replicate count '^' := by
  have none : label.takeWhile (fun character => character = '^') = [] := by
    rcases separate with rfl | isBlank
    · rfl
    · cases label with
      | nil => rfl
      | cons character label =>
          cases isBlank
          rfl
  rw [List.takeWhile_append_of_pos, none, List.append_nil]
  intro character member
  exact decide_eq_true (List.eq_of_mem_replicate member)

theorem drop_caretRow (location : Location) (offset count : Nat) (label : List Char) :
    (caretRow location offset count ++ label).drop ((gutter location).length + 3 + offset) =
      List.replicate count '^' ++ label := by
  rw [caretRow, List.append_assoc]
  apply List.drop_left'
  simp only [List.length_append, List.length_replicate, List.length_cons, List.length_nil]

theorem linesUp_rows {label : List Char} (isLine : IsLineOf sources location line)
    (separate : label = [] ∨ label.head? = some ' ') :
    LinesUp location.line line (sourceRow location line)
      (caretRow location (caretOffset location) (caretCount location line) ++ label)
      (caretOffset location) (caretCount location line) := by
  have first := idxOf_caretRow location (caretOffset location) label
    (one_le_caretCount location line)
  constructor
  · rfl
  · obtain ⟨text, index, _, _, found⟩ := isLine
    have number := @not_mem_toString '\n' (by decide) (by decide) location.line
    have within := Text.not_mem_of_mem_split line (List.mem_of_getElem? found)
    rw [sourceRow]
    exact List.not_mem_append (List.not_mem_append number (by decide)) within
  · rw [first, List.length_append]
    rfl
  · rw [first, drop_caretRow, takeWhile_carets separate, List.length_replicate]

/-- Colors add nothing to a rendering. If the line of the location is known, it is shown with carets
below the span of the location, and otherwise the place is named and no line is shown. -/
theorem renders_faithfully (diagnostic : Diagnostic) (sources : Report.Sources) :
    diagnostic.RendersFaithfully sources where
  stripped := strip_render
  shown := by
    intro location line located isLine
    have found := sourceLine?_eq_some_iff.mpr isLine
    refine ⟨_, _, _, _, ?_, linesUp_rows isLine (labelText_cases diagnostic.label),
      marks_carets location line⟩
    rw [render_false, String.toList_ofList, lines_of_sourceLine? located found]
    rfl
  bare := by
    intro nowhere
    rw [render_false, String.toList_ofList, lines, layout_of_isNowhere nowhere, Diagnostic.bare,
      List.map_cons, List.map_cons, text_headline, texts_extraLines]
    simp [Piece.plain]

/-! An import on the tenth line of a text, in a rendering with a code, a help and a label. -/

def misspelt : Diagnostic where
  message := "module 'utils' not found"
  location := some ⟨"main", 10, 6, 10, 11⟩
  code := some "E0583"
  help := some "maybe you meant util"
  note := none
  label := some "unresolved import"

def misspeltSources : Report.Sources := [("main", "\n\n\n\n\n\n\n\n\nfrom utils import Item")]

theorem isUncolored_misspelt : misspelt.IsUncolored misspeltSources where
  texts := by decide
  line := by
    intro location line located isLine
    cases located
    have found := sourceLine?_eq_some_iff.mpr isLine
    have known : sourceLine? misspeltSources ⟨"main", 10, 6, 10, 11⟩ =
        some "from utils import Item".toList := by decide
    cases known.symm.trans found
    decide

theorem renders_faithfully_misspelt :
    strip (misspelt.render misspeltSources true).toList =
        (misspelt.render misspeltSources false).toList ∧
      ∃ row below, LinesUp 10 "from utils import Item".toList row below 5 5 := by
  have faithful := renders_faithfully misspelt misspeltSources
  refine ⟨faithful.stripped isUncolored_misspelt, ?_⟩
  obtain ⟨row, below, offset, count, _, linesUp, marks⟩ := faithful.shown _
    "from utils import Item".toList rfl ⟨_, 9, rfl, rfl, by decide⟩
  have first : offset = 5 := Int.ofNat_inj.mp marks.first
  have span : count = 5 := Int.ofNat_inj.mp (marks.span ⟨by decide, .inr rfl⟩)
  subst first span
  exact ⟨row, below, linesUp⟩

end Diagnostic

end ServiceModules
