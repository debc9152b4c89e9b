import ServiceModules.Proofs.Draft.Reading
import ServiceModules.Proofs.Source.Excerpt

/-!
What a reading has read. Its place is told by the text before it, and every token that it takes is
an excerpt of the text.
-/

namespace ServiceModules

namespace Lexeme

theorem gap_behind {blanks tail : List Char} (nonempty : tail ≠ [])
    (gapped : gap (blanks ++ tail) = blanks) : gap tail = [] := by
  have whole := gapFrom_append nonempty gapped tail
  rw [← gap, gapped] at whole
  exact List.append_cancel_left (whole.symm.trans (List.append_nil blanks).symm)

theorem gap_alone {blanks tail : List Char} (nonempty : tail ≠ [])
    (gapped : gap (blanks ++ tail) = blanks) : gap blanks = blanks := by
  have alone := gapFrom_append nonempty gapped []
  rw [List.append_nil] at alone
  exact alone.trans (List.append_nil blanks)

end Lexeme

theorem Text.isVisible_behind_gap {blanks tail : List Char} (nonempty : tail ≠ [])
    (gapped : Lexeme.gap (blanks ++ tail) = blanks) : Text.IsVisible tail :=
  isVisible_of_gap nonempty (Lexeme.gap_behind nonempty gapped)

namespace Reading

/-- The reading has come to its place by reading this part of the text. -/
def HasRead (reading : Reading) (text read : List Char) : Prop :=
  text = read ++ reading.rest ∧ reading.position = Position.first.afterAll read

variable {reading later : Reading} {text read : List Char}

theorem HasRead.isPrefix (place : reading.HasRead text read) : read <+: text :=
  ⟨reading.rest, place.1.symm⟩

section

variable {draft : Draft} {position : Position} {blanks piece rest : List Char}
  (place : HasRead ⟨draft, position, blanks ++ (piece ++ rest)⟩ text read)

include place

theorem HasRead.token (next : Draft) :
    HasRead ⟨next, (position.afterAll blanks).afterAll piece, rest⟩ text
      (read ++ (blanks ++ piece)) := by
  rcases place with ⟨whole, placed⟩
  have placed : position = Position.first.afterAll read := placed
  constructor
  · rw [whole]
    simp only [List.append_assoc]
  · rw [placed, Position.afterAll_append, Position.afterAll_append]

theorem HasRead.covers (nonempty : piece ≠ [])
    (gapped : Lexeme.gap (blanks ++ (piece ++ rest)) = blanks) :
    (Span.ofText (position.afterAll blanks) piece).Covers (read ++ (blanks ++ piece)) piece := by
  have behind : piece ++ rest ≠ [] := List.append_ne_nil_of_left_ne_nil nonempty rest
  have visible := Text.isVisible_behind_gap behind gapped
  have placed : position = Position.first.afterAll read := place.2
  refine ⟨visible.left nonempty, read ++ blanks, [], ?_, ?_⟩
  · rw [List.append_nil, List.append_assoc]
  · rw [Position.afterAll_append, ← placed]

end

end Reading

end ServiceModules
