import ServiceModules.Proofs.Text.Split
import ServiceModules.Source.Location
import ServiceModules.Token.Lexeme

/-!
Excerpts of a text. A span that is told of a text runs over some of its characters, and the first of
them can be seen. Lines are counted by the line feeds before a place, so that the place is found
again in the lines of the text.
-/

namespace ServiceModules

def Text.IsVisible (text : List Char) : Prop :=
  ∃ character rest, text = character :: rest ∧ Lexeme.isBlank character = false

/-- The span runs over `piece`, which stands in the text. -/
def Span.Covers (span : Span) (text piece : List Char) : Prop :=
  Text.IsVisible piece ∧ ∃ front back, text = front ++ (piece ++ back) ∧
    span = .ofText (Position.first.afterAll front) piece

namespace Text

theorem IsVisible.append {text : List Char} (visible : IsVisible text) (more : List Char) :
    IsVisible (text ++ more) := by
  rcases visible with ⟨character, rest, rfl, notBlank⟩
  exact ⟨character, rest ++ more, rfl, notBlank⟩

theorem isVisible_of_gap {text : List Char} (nonempty : text ≠ []) (gapped : Lexeme.gap text = []) :
    IsVisible text := by
  cases text with
  | nil => exact absurd rfl nonempty
  | cons character rest =>
      refine ⟨character, rest, rfl, ?_⟩
      rw [Lexeme.gap, Lexeme.gapFrom, if_neg Bool.false_ne_true] at gapped
      split at gapped
      · cases gapped
      · next notBlank => exact Bool.eq_false_iff.mpr notBlank

theorem IsVisible.left {piece back : List Char} (visible : IsVisible (piece ++ back))
    (nonempty : piece ≠ []) : IsVisible piece := by
  cases piece with
  | nil => exact absurd rfl nonempty
  | cons character rest =>
      rcases visible with ⟨first, others, whole, notBlank⟩
      cases whole
      exact ⟨character, rest, rfl, notBlank⟩

theorem IsVisible.exists_head {text : List Char} (visible : IsVisible text) :
    ∃ character rest, text = character :: rest ∧ character ≠ '\n' := by
  rcases visible with ⟨character, rest, whole, notBlank⟩
  refine ⟨character, rest, whole, ?_⟩
  rintro rfl
  cases notBlank

/-! ## Places in the lines of a text -/

theorem getElem?_split_zero (tail : List Char) :
    (split '\n' tail)[0]? = some (tail.takeWhile (· ≠ '\n')) := by
  induction tail with
  | nil => rfl
  | cons character rest induction =>
      by_cases feed : character = '\n'
      · rw [feed, split_cons_self]
        rfl
      · rcases split_cons_of_ne feed rest with ⟨part, parts, inner, outer⟩
        rw [inner] at induction
        rw [outer, List.takeWhile_cons, if_pos (decide_eq_true feed)]
        exact congrArg (Option.map (character :: ·)) induction

/-- The line that a place stands in goes on to the next line feed, and its column tells how much of
the line stands before the place. Only on the first line does the place that reading began at
matter, which is what the induction carries along. -/
theorem exists_line (position : Position) (front tail : List Char) :
    ∃ before, (split '\n' (front ++ tail))[front.count '\n']? =
        some (before ++ tail.takeWhile (· ≠ '\n')) ∧
      (position.afterAll front).line = position.line + front.count '\n' ∧
      (position.afterAll front).column =
        (if front.count '\n' = 0 then position.column else 1) + before.length := by
  induction front generalizing position with
  | nil => exact ⟨[], getElem?_split_zero tail, rfl, rfl⟩
  | cons character front induction =>
      rcases induction (position.after character) with ⟨before, line, row, column⟩
      rw [Position.afterAll_cons, List.cons_append]
      by_cases feed : character = '\n'
      · subst feed
        rw [Position.after, if_pos rfl] at row column
        rw [split_cons_self, List.count_cons_self, List.getElem?_cons_succ]
        refine ⟨before, line, ?_, ?_⟩
        · rw [Position.after, if_pos rfl, row]
          exact Nat.add_right_comm ..
        · rw [Position.after, if_pos rfl, column, if_neg (Nat.succ_ne_zero _), ite_self]
      · rcases split_cons_of_ne feed (front ++ tail) with ⟨part, parts, inner, outer⟩
        rw [Position.after, if_neg feed] at row column
        rw [inner] at line
        rw [outer, List.count_cons_of_ne feed, Position.after, if_neg feed]
        cases lines : front.count '\n' with
        | zero =>
            rw [lines] at line row column
            cases line
            refine ⟨character :: before, rfl, row, ?_⟩
            rw [column, if_pos rfl, if_pos rfl, List.length_cons, Nat.add_assoc,
              Nat.add_comm before.length]
        | succ count =>
            rw [lines] at line row column
            exact ⟨before, line, row, column⟩

end Text

/-! ## Texts that are read on -/

/-- The place is that of a character that was read, and from there on all was read up to the end. -/
def Position.Opens (start : Position) (read : List Char) : Prop :=
  ∃ front piece, read = front ++ piece ∧ start = Position.first.afterAll front ∧
    Text.IsVisible piece

/-- The span runs over something that was read. -/
def Span.IsExcerpt (span : Span) (read : List Char) : Prop := ∃ piece, span.Covers read piece

namespace Span

variable {span : Span} {read piece : List Char}

theorem Covers.mono (covers : span.Covers read piece) {after : List Char}
    (longer : read <+: after) : span.Covers after piece := by
  rcases covers with ⟨visible, front, back, rfl, placed⟩
  rcases longer with ⟨more, rfl⟩
  exact ⟨visible, front, back ++ more, by simp only [List.append_assoc], placed⟩

end Span

namespace Position

theorem line_afterAll (position : Position) (text : List Char) :
    (position.afterAll text).line = position.line + text.count '\n' := by
  rcases Text.exists_line position text [] with ⟨_, _, row, _⟩
  exact row

theorem afterAll_of_not_mem {text : List Char} (single : '\n' ∉ text) (position : Position) :
    position.afterAll text = ⟨position.line, position.column + text.length⟩ := by
  induction text generalizing position with
  | nil => rfl
  | cons character rest induction =>
      have other : character ≠ '\n' := fun same => single (same ▸ List.mem_cons_self ..)
      rw [afterAll_cons, induction (fun member => single (List.mem_cons_of_mem _ member)), after,
        if_neg other, List.length_cons, Nat.add_assoc, Nat.add_comm 1]

end Position

namespace Location

def character? (location : Location) (text : String) : Option Char :=
  if 0 < location.line ∧ 0 < location.column then
    ((Text.split '\n' text.toList)[(location.line - 1).toNat]?).bind fun characters =>
      characters[(location.column - 1).toNat]?
  else none

theorem character?_eq_some {location : Location} {text : String} {front back : List Char}
    {character : Char} (whole : text.toList = front ++ character :: back)
    (other : character ≠ '\n') (row : location.line = (Position.first.afterAll front).line)
    (column : location.column = (Position.first.afterAll front).column) :
    location.character? text = some character := by
  rcases Text.exists_line Position.first front (character :: back) with
    ⟨before, line, placedRow, placedColumn⟩
  have firstColumn : (Position.first.afterAll front).column = 1 + before.length := by
    rw [placedColumn]
    split <;> rfl
  have firstRow : (Position.first.afterAll front).line = 1 + front.count '\n' := placedRow
  rw [character?, if_pos (by omega), whole, row, firstRow, column, firstColumn]
  have index : ((1 + front.count '\n' : Nat) - 1 : Int).toNat = front.count '\n' := by omega
  have offset : ((1 + before.length : Nat) - 1 : Int).toNat = before.length := by omega
  rw [index, offset, line, Option.bind_some, List.takeWhile_cons, if_pos (decide_eq_true other),
    List.getElem?_append_right (Nat.le_refl _), Nat.sub_self]
  rfl

end Location

end ServiceModules
