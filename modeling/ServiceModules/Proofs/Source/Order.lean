import ServiceModules.Source.Location

/-!
The order of places in a text: by line, and in one line by column. Reading characters leads to later
places.
-/

namespace ServiceModules

namespace Position

def Before (left right : Position) : Prop :=
  left.line < right.line ∨ left.line = right.line ∧ left.column < right.column

instance (left right : Position) : Decidable (left.Before right) :=
  inferInstanceAs (Decidable (_ ∨ _))

def AtMost (left right : Position) : Prop := left = right ∨ left.Before right

variable {left middle right : Position}

theorem Before.trans (first : left.Before middle) (second : middle.Before right) :
    left.Before right := by
  rw [Before] at *
  omega

theorem Before.ne (before : left.Before right) : left ≠ right := by
  rintro rfl
  rw [Before] at before
  omega

theorem AtMost.refl (position : Position) : position.AtMost position := .inl rfl

theorem Before.atMost (before : left.Before right) : left.AtMost right := .inr before

theorem Before.trans_atMost (first : left.Before middle) (second : middle.AtMost right) :
    left.Before right := by
  rcases second with rfl | second
  · exact first
  · exact first.trans second

theorem AtMost.trans_before (first : left.AtMost middle) (second : middle.Before right) :
    left.Before right := by
  rcases first with rfl | first
  · exact second
  · exact first.trans second

theorem AtMost.trans (first : left.AtMost middle) (second : middle.AtMost right) :
    left.AtMost right := by
  rcases first with rfl | first
  · exact second
  · exact (first.trans_atMost second).atMost

theorem before_after (position : Position) (character : Char) :
    position.Before (position.after character) := by
  rw [after]
  split
  · exact .inl (Nat.lt_succ_self _)
  · exact .inr ⟨rfl, Nat.lt_succ_self _⟩

theorem atMost_afterAll (position : Position) (characters : List Char) :
    position.AtMost (position.afterAll characters) := by
  induction characters generalizing position with
  | nil => exact .refl position
  | cons character rest induction =>
      rw [afterAll_cons]
      exact (before_after position character).atMost.trans (induction _)

theorem afterAll_atMost_append (position : Position) (front more : List Char) :
    (position.afterAll front).AtMost (position.afterAll (front ++ more)) := by
  rw [afterAll_append]
  exact atMost_afterAll _ more

theorem before_afterAll (position : Position) {characters : List Char}
    (nonempty : 0 < characters.length) : position.Before (position.afterAll characters) := by
  cases characters with
  | nil => cases nonempty
  | cons character rest =>
      rw [afterAll_cons]
      exact (before_after position character).trans_atMost (atMost_afterAll _ rest)

end Position

namespace Location

def Before (left right : Location) : Prop :=
  left.line < right.line ∨ left.line = right.line ∧ left.column < right.column

instance (left right : Location) : Decidable (left.Before right) :=
  inferInstanceAs (Decidable (_ ∨ _))

theorem before_ofSpan_iff {file other : String} {span otherSpan : Span} :
    (ofSpan file span).Before (ofSpan other otherSpan) ↔ span.start.Before otherSpan.start := by
  simp only [Before, ofSpan, Position.Before, Int.ofNat_lt, Int.ofNat_inj]

theorem start_eq_of_ofSpan_eq {file other : String} {span otherSpan : Span}
    (same : ofSpan file span = ofSpan other otherSpan) : span.start = otherSpan.start := by
  rcases span with ⟨⟨line, column⟩, stop⟩
  rcases otherSpan with ⟨⟨otherLine, otherColumn⟩, otherStop⟩
  rw [ofSpan, ofSpan, Location.mk.injEq] at same
  rcases same with ⟨_, sameLine, sameColumn, _⟩
  rw [Position.mk.injEq]
  exact ⟨Int.ofNat.inj sameLine, Int.ofNat.inj sameColumn⟩

end Location

end ServiceModules
