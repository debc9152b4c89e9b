import Mathlib.Data.List.TakeWhile
import ServiceModules.Proofs.Diagnostic.Snippet

/-!
Colors add nothing. When the escape sequences are removed from a painted text, the plain text is
left, as long as no piece of it holds an escape character of its own.
-/

namespace ServiceModules

namespace Style

/-! ## Removing escape sequences -/

def isParameter (character : Char) : Bool := character.isDigit || character = ';'

/-- What stands behind the escape sequence that a text begins with, if it begins with one: an escape
character, a bracket, digits and semicolons, and the letter `m`. -/
def behindSequence? : List Char → Option (List Char)
  | first :: second :: rest =>
    if first = escapeCharacter && second = '[' then
      match rest.dropWhile isParameter with
      | [] => none
      | last :: behind => if last = 'm' then some behind else none
    else none
  | _ => none

theorem length_behindSequence? {text behind : List Char}
    (found : behindSequence? text = some behind) : behind.length < text.length := by
  unfold behindSequence? at found
  split at found
  · next first second rest =>
    split at found
    · have shorter := (List.dropWhile_suffix (l := rest) isParameter).length_le
      split at found
      · cases found
      · next last tail dropped =>
        split at found
        · cases found
          rw [dropped] at shorter
          simp only [List.length_cons] at shorter ⊢
          omega
        · cases found
    · cases found
  · cases found

def strip (text : List Char) : List Char :=
  match text with
  | [] => []
  | character :: rest =>
    match found : behindSequence? (character :: rest) with
    | some behind =>
      have := length_behindSequence? found
      strip behind
    | none => character :: strip rest
termination_by text.length
decreasing_by
  · exact this
  · exact Nat.lt_succ_self _

@[simp] theorem strip_nil : strip [] = [] := by
  rw [strip]

theorem strip_of_behindSequence? {text behind : List Char}
    (found : behindSequence? text = some behind) : strip text = strip behind := by
  cases text with
  | nil => cases found
  | cons character rest =>
      rw [strip]
      split
      · next other also => rw [Option.some.inj (found.symm.trans also)]
      · next none => cases found.symm.trans none

theorem strip_cons_of_ne {character : Char} (other : character ≠ escapeCharacter)
    (rest : List Char) : strip (character :: rest) = character :: strip rest := by
  have none : behindSequence? (character :: rest) = none := by
    cases rest with
    | nil => rfl
    | cons second rest => simp [behindSequence?, other]
  rw [strip]
  split
  · next behind found => cases found.symm.trans none
  · rfl

theorem strip_append {text : List Char} (plain : escapeCharacter ∉ text) (rest : List Char) :
    strip (text ++ rest) = text ++ strip rest := by
  induction text with
  | nil => rfl
  | cons character text induction =>
      have other : character ≠ escapeCharacter := fun same => plain (same ▸ List.mem_cons_self ..)
      rw [List.cons_append, strip_cons_of_ne other,
        induction fun member => plain (List.mem_cons_of_mem _ member), List.cons_append]

theorem strip_sequence {number : List Char} (digits : ∀ digit ∈ number, isParameter digit = true)
    (rest : List Char) : strip (sequence number ++ rest) = strip rest := by
  apply strip_of_behindSequence?
  have dropped : (number ++ 'm' :: rest).dropWhile isParameter = 'm' :: rest := by
    rw [List.dropWhile_append_of_pos digits]
    exact List.dropWhile_cons_of_neg (by decide)
  have whole : sequence number ++ rest = escapeCharacter :: '[' :: (number ++ 'm' :: rest) := by
    simp [sequence]
  rw [whole, behindSequence?, if_pos (by decide), dropped]
  rfl

theorem strip_begin (style : Style) (rest : List Char) :
    strip (style.begin ++ rest) = strip rest := by
  apply strip_sequence
  cases style <;> exact List.all_eq_true.mp rfl

end Style

/-! ## Painted pieces -/

namespace Piece

open Style

variable {piece : Piece} {pieces : List Piece} {lines : List (List Piece)}

theorem strip_begins (styles : List Style) (rest : List Char) :
    strip (styles.flatMap Style.begin ++ rest) = strip rest := by
  induction styles with
  | nil => rfl
  | cons style styles induction =>
      rw [List.flatMap_cons, List.append_assoc, strip_begin, induction]

theorem strip_paint (plain : escapeCharacter ∉ piece.text) (rest : List Char) :
    strip (piece.paint true ++ rest) = piece.paint false ++ strip rest := by
  rw [paint_false, paint]
  split
  · rw [List.append_assoc, List.append_assoc, strip_begins, strip_append plain, reset,
      strip_sequence (List.all_eq_true.mp rfl)]
  · exact strip_append plain rest

theorem strip_paintLine (plain : ∀ piece ∈ pieces, escapeCharacter ∉ piece.text)
    (rest : List Char) :
    strip (paintLine true pieces ++ rest) = paintLine false pieces ++ strip rest := by
  induction pieces with
  | nil => rfl
  | cons piece pieces induction =>
      have here := plain piece (List.mem_cons_self ..)
      have behind := induction fun other member => plain other (List.mem_cons_of_mem _ member)
      rw [paintLine] at behind ⊢
      rw [List.flatMap_cons, List.append_assoc, strip_paint here, behind, paintLine, paintLine,
        List.flatMap_cons, List.append_assoc]

theorem paintLines_cons (color : Bool) (pieces : List Piece) (more : lines ≠ []) :
    paintLines color (pieces :: lines) =
      paintLine color pieces ++ '\n' :: paintLines color lines := by
  rw [paintLines, List.map_cons, Text.intercalate_cons (mt List.map_eq_nil_iff.mp more), paintLines]

theorem strip_paintLines
    (plain : ∀ pieces ∈ lines, ∀ piece ∈ pieces, escapeCharacter ∉ piece.text) :
    strip (paintLines true lines) = paintLines false lines := by
  induction lines with
  | nil => exact strip_nil
  | cons pieces lines induction =>
      have here := strip_paintLine (plain pieces (List.mem_cons_self ..))
      have behind := induction fun other member => plain other (List.mem_cons_of_mem _ member)
      by_cases last : lines = []
      · have only := here []
        rw [strip_nil, List.append_nil, List.append_nil] at only
        rw [last, paintLines, paintLines]
        simpa [List.intercalate] using only
      · rw [paintLines_cons true pieces last, here, strip_cons_of_ne (by decide), behind,
          paintLines_cons false pieces last]

end Piece

end ServiceModules
