import Mathlib.Logic.Basic
import ServiceModules.Proofs.Source.Order

/-!
Places behind a text that is put into another one. What stood from `origin` on stands from
`target` on then: in the line of `origin` it has moved to the line of `target`, and below it only
to other lines. A span that ends at `origin` has not moved, and one that begins there has.
-/

namespace ServiceModules

namespace Position

instance (left right : Position) : Decidable (left.Before right) :=
  inferInstanceAs (Decidable (left.line < right.line ∨
    left.line = right.line ∧ left.column < right.column))

instance (left right : Position) : Decidable (left.AtMost right) :=
  inferInstanceAs (Decidable (left = right ∨ left.Before right))

/-- The place that `place` becomes when the text behind `origin` goes on at `target`. -/
def moved (origin target place : Position) : Position :=
  if place.line = origin.line then
    ⟨target.line, target.column + (place.column - origin.column)⟩
  else ⟨target.line + (place.line - origin.line), place.column⟩

variable {origin target place : Position}

theorem atMost_iff {left right : Position} : left.AtMost right ↔
    left.line < right.line ∨ left.line = right.line ∧ left.column ≤ right.column := by
  rcases left with ⟨line, column⟩
  rcases right with ⟨otherLine, otherColumn⟩
  simp only [AtMost, Before, mk.injEq]
  omega

theorem not_before {left right : Position} (order : left.AtMost right) : ¬right.Before left := by
  rw [atMost_iff] at order
  rw [Before]
  omega

theorem not_atMost {left right : Position} (order : left.Before right) : ¬right.AtMost left := by
  rw [Before] at order
  rw [atMost_iff]
  omega

theorem eq_iff {left right : Position} :
    left = right ↔ left.line = right.line ∧ left.column = right.column := by
  rcases left with ⟨line, column⟩
  rcases right with ⟨otherLine, otherColumn⟩
  rw [mk.injEq]

theorem moved_of_line (same : place.line = origin.line) :
    moved origin target place = ⟨target.line, target.column + (place.column - origin.column)⟩ :=
  if_pos same

theorem moved_of_ne_line (other : place.line ≠ origin.line) :
    moved origin target place = ⟨target.line + (place.line - origin.line), place.column⟩ :=
  if_neg other

theorem moved_origin : moved origin target origin = target := by
  rw [moved_of_line rfl, Nat.sub_self, Nat.add_zero]

theorem moved_after {character : Char} (behind : (origin.after character).AtMost place) :
    moved (origin.after character) (target.after character) place = moved origin target place := by
  rw [atMost_iff] at behind
  rw [eq_iff]
  by_cases newline : character = '\n'
  · simp only [after, if_pos newline] at behind ⊢
    have below : place.line ≠ origin.line := by omega
    by_cases next : place.line = origin.line + 1
    · simp only [moved, if_pos next, if_neg below]
      omega
    · simp only [moved, if_neg next, if_neg below, and_true]
      omega
  · simp only [after, if_neg newline] at behind ⊢
    by_cases same : place.line = origin.line
    · simp only [moved, if_pos same, true_and]
      omega
    · simp only [moved, if_neg same, and_self]

theorem moved_afterAll (characters : List Char) :
    moved origin target (origin.afterAll characters) = target.afterAll characters := by
  induction characters generalizing origin target with
  | nil => exact moved_origin
  | cons character rest induction =>
    rw [afterAll_cons, afterAll_cons, ← moved_after (atMost_afterAll _ rest)]
    exact induction

theorem atMost_moved (behind : origin.AtMost place) :
    target.AtMost (moved origin target place) := by
  rw [atMost_iff] at behind ⊢
  by_cases same : place.line = origin.line
  · rw [moved_of_line same]
    exact .inr ⟨rfl, Nat.le_add_right _ _⟩
  · rw [moved_of_ne_line same]
    exact .inl (by simp only; omega)

theorem before_moved (behind : origin.Before place) :
    target.Before (moved origin target place) := by
  rw [Before] at behind ⊢
  by_cases same : place.line = origin.line
  · rw [moved_of_line same]
    exact .inr ⟨rfl, by simp only; omega⟩
  · rw [moved_of_ne_line same]
    exact .inl (by simp only; omega)

theorem moved_moved (behind : origin.AtMost place) :
    moved target origin (moved origin target place) = place := by
  rw [atMost_iff] at behind
  rw [eq_iff]
  by_cases same : place.line = origin.line
  · simp only [moved, if_pos same, if_true]
    omega
  · have below : target.line + (place.line - origin.line) ≠ target.line := by omega
    simp only [moved, if_neg same, if_neg below, and_true]
    omega

/-- The place that has become `place`, where the text from `origin` to `target` was put in. -/
def movedBack (origin target place : Position) : Position :=
  if place.AtMost origin then place else moved target origin place

theorem movedBack_of_atMost (early : place.AtMost origin) : movedBack origin target place = place :=
  if_pos early

theorem movedBack_of_behind (order : origin.AtMost target) (late : target.AtMost place) :
    movedBack origin target place = moved target origin place := by
  by_cases early : place.AtMost origin
  · have all : place = origin ∧ target = origin := by
      simp only [atMost_iff, eq_iff] at order late early ⊢
      omega
    rcases all with ⟨rfl, rfl⟩
    rw [movedBack_of_atMost early, moved_origin]
  · exact if_neg early

theorem ite_before_movedBack (order : origin.AtMost target)
    (outside : place.Before origin ∨ target.AtMost place) :
    (if (movedBack origin target place).Before origin then movedBack origin target place
      else moved origin target (movedBack origin target place)) = place := by
  rcases outside with early | late
  · rw [movedBack_of_atMost early.atMost, if_pos early]
  · have behind := @atMost_moved target origin place late
    rw [movedBack_of_behind order late, if_neg (not_before behind), moved_moved late]

theorem ite_atMost_movedBack (order : origin.AtMost target)
    (outside : place.AtMost origin ∨ target.Before place) :
    (if (movedBack origin target place).AtMost origin then movedBack origin target place
      else moved origin target (movedBack origin target place)) = place := by
  rcases outside with early | late
  · rw [movedBack_of_atMost early, if_pos early]
  · have behind := @before_moved target origin place late
    rw [movedBack_of_behind order late.atMost, if_neg (not_atMost behind),
      moved_moved late.atMost]

end Position

namespace Span

open Position (movedBack)

/-- The span that `span` becomes when the text behind `origin` goes on at `target`: what begins
before `origin` begins there still, and what ends before it or there still ends there. -/
def moved (origin target : Position) (span : Span) : Span where
  start := if span.start.Before origin then span.start else Position.moved origin target span.start
  stop := if span.stop.AtMost origin then span.stop else Position.moved origin target span.stop

theorem moved_movedBack {origin target : Position} {span : Span} (order : origin.AtMost target)
    (begins : span.start.Before origin ∨ target.AtMost span.start)
    (ends : span.stop.AtMost origin ∨ target.Before span.stop) :
    moved origin target ⟨movedBack origin target span.start, movedBack origin target span.stop⟩ =
      span := by
  have start := Position.ite_before_movedBack order begins
  have stop := Position.ite_atMost_movedBack order ends
  simp only [moved, start, stop]

end Span

end ServiceModules
