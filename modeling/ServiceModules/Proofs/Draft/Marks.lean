import Mathlib.Data.List.Perm.Basic
import ServiceModules.Proofs.Draft.Read
import ServiceModules.Proofs.Draft.Step
import ServiceModules.Proofs.Program.References

/-!
Marks: the places where import targets and references to types begin. Reading a token adds at most
one mark to a draft, the place of the token itself, so that no two targets or references of a
program begin at one place.
-/

namespace ServiceModules

def TypeReference.mark (reference : TypeReference) : Position := reference.span.start

def ImportTarget.mark (target : ImportTarget) : Position := target.span.start

def TypeExpression.marks (expression : TypeExpression) : List Position :=
  expression.references.map TypeReference.mark

def Field.marks (field : Field) : List Position := field.references.map TypeReference.mark

def Operation.marks (operation : Operation) : List Position :=
  operation.references.map TypeReference.mark

namespace Statement

def marks : Statement → List Position
  | .importing statement => statement.targets.map ImportTarget.mark
  | .declaring declaration => declaration.references.map TypeReference.mark

end Statement

namespace ImportFragment

def marks : ImportFragment → List Position
  | .afterFrom _ => []
  | .afterPath _ _ _ => []
  | .beforeTarget clause => clause.targets.map ImportTarget.mark
  | .afterTarget clause last => clause.targets.map ImportTarget.mark ++ [last.mark]
  | .afterAs clause last => clause.targets.map ImportTarget.mark ++ [last.mark]
  | .afterRenaming clause last => clause.targets.map ImportTarget.mark ++ [last.mark]

end ImportFragment

namespace OpenRecord

def marks : OpenRecord → List Position
  | .ofDeclaration _ _ fields => fields.flatMap Field.marks
  | .ofField outer _ _ fields => outer.marks ++ fields.flatMap Field.marks

end OpenRecord

namespace InterfacePlace

def marks : InterfacePlace → List Position
  | .beforeOperation => []
  | .afterDocumentation _ => []
  | .afterName _ => []
  | .inRequest _ => []
  | .afterRequestType _ request => [request.mark]
  | .afterRequest _ request _ => request.toList.map TypeReference.mark
  | .afterArrow _ request => request.toList.map TypeReference.mark

end InterfacePlace

namespace Fragment

def marks : Fragment → List Position
  | .importing fragment => fragment.marks
  | .afterDocumentation _ => []
  | .afterWord _ _ => []
  | .afterName _ _ => []
  | .afterColon _ => []
  | .synonym _ reference => [reference.mark]
  | .inRecord record _ => record.marks
  | .inInterface _ operations place => operations.flatMap Operation.marks ++ place.marks
  | .inService _ embeds implements _ => (embeds ++ implements).map TypeReference.mark
  | .ended declaration => declaration.references.map TypeReference.mark

end Fragment

namespace Draft

def marks (draft : Draft) : List Position :=
  draft.finished.flatMap Statement.marks ++
    (draft.current.map Fragment.marks).getD []

end Draft

def AddsMark (start : Position) (before after : List Position) : Prop :=
  after.Perm before ∨ after.Perm (start :: before)

namespace AddsMark

variable {start : Position} {before after : List Position}

theorem refl : AddsMark start before before := .inl (.refl _)

theorem one (more : after.Perm (start :: before)) : AddsMark start before after := .inr more

theorem append_left (adds : AddsMark start before after) (others : List Position) :
    AddsMark start (others ++ before) (others ++ after) := by
  rcases adds with same | more
  · exact .inl (same.append_left others)
  · exact .inr ((more.append_left others).trans List.perm_middle)

end AddsMark

structure MarksBefore (marks : List Position) (position : Position) : Prop where
  distinct : marks.Nodup
  before : ∀ mark ∈ marks, mark.Before position

/-- A token adds at most the mark of its own place, which is a new one. -/
theorem MarksBefore.step {before after : List Position} {position : Position} {token : Token}
    (marked : MarksBefore before position) (follows : Draft.Follows position token)
    (adds : AddsMark token.span.start before after) : MarksBefore after token.span.stop := by
  have passed : position.Before token.span.stop := follows.start.trans_before follows.stop
  have fresh : token.span.start ∉ before := by
    intro member
    exact ((marked.before _ member).trans_atMost follows.start).ne rfl
  rcases adds with same | more
  · exact
      { distinct := same.nodup_iff.mpr marked.distinct
        before := fun mark member => (marked.before mark (same.mem_iff.mp member)).trans passed }
  · refine
      { distinct := more.nodup_iff.mpr (List.nodup_cons.mpr ⟨fresh, marked.distinct⟩)
        before := ?_ }
    intro mark member
    rcases List.mem_cons.mp (more.mem_iff.mp member) with rfl | member
    · exact follows.stop
    · exact (marked.before mark member).trans passed

/-! ## What a token adds to a fragment -/

theorem ImportClause.marks_add (clause : ImportClause) (target : ImportTarget) :
    (clause.add target).targets.map ImportTarget.mark =
      clause.targets.map ImportTarget.mark ++ [target.mark] := by
  rw [add, List.map_append, List.map_singleton]

theorem ImportFragment.addsMark_extend {fragment extended : ImportFragment} {token : Token}
    (step : fragment.extend token = some extended) :
    AddsMark token.span.start fragment.marks extended.marks := by
  unfold extend at step
  split at step
  · cases step
    exact .refl
  · cases step
    exact .refl
  · cases step
    exact .one (List.perm_append_singleton _ _)
  · cases step
    exact .refl
  · next clause last _ =>
    cases step
    rw [marks, marks, ImportClause.marks_add]
    exact .refl
  · -- A renaming moves the end of its target, not the beginning.
    cases step
    exact .refl
  · next clause last _ =>
    cases step
    rw [marks, marks, ImportClause.marks_add]
    exact .refl
  · cases step

theorem OpenRecord.marks_addTyped (record : OpenRecord) (field : NamedHeading)
    (type : TypeExpression) :
    (record.addTyped field type).marks = record.marks ++ type.marks := by
  cases record with
  | ofDeclaration declared start fields =>
      rw [addTyped, add, marks, marks, List.flatMap_append, List.flatMap_singleton, Field.marks,
        Field.references_mk, TypeExpression.marks]
  | ofField outer owner start fields =>
      rw [addTyped, add, marks, marks, List.flatMap_append, List.flatMap_singleton, Field.marks,
        Field.references_mk, TypeExpression.marks, List.append_assoc]

theorem TypeExpression.marks_record (fields : List Field) (span : Span) :
    (TypeExpression.record fields span).marks = fields.flatMap Field.marks := by
  rw [marks, references_record, List.map_flatMap]
  rfl

theorem OpenRecord.marks_close (record : OpenRecord) (token : Token) :
    (record.close token).marks = record.marks := by
  cases record with
  | ofDeclaration declared start fields =>
      rw [close, Fragment.marks, Declaration.references_eq]
      exact TypeExpression.marks_record fields ⟨start, token.span.stop⟩
  | ofField outer field start fields =>
      rw [close, Fragment.marks, marks_addTyped, TypeExpression.marks_record, marks]

theorem RecordPlace.addsMark_extend {record : OpenRecord} {place : RecordPlace}
    {extended : Fragment} {token : Token} (step : place.extend record token = some extended) :
    AddsMark token.span.start record.marks extended.marks := by
  unfold extend at step
  split at step
  · cases step
    exact .refl
  · cases step
    exact .refl
  · cases step
    rw [OpenRecord.marks_close]
    exact .refl
  · cases step
    exact .refl
  · cases step
    exact .refl
  · cases step
    exact .refl
  · cases step
    rw [Fragment.marks, OpenRecord.marks_addTyped]
    exact .one (List.perm_append_singleton _ _)
  · cases step
    rw [Fragment.marks, OpenRecord.marks, List.flatMap_nil, List.append_nil]
    exact .refl
  · cases step

theorem NamedHeading.marks_operation (operations : List Operation) (heading : NamedHeading)
    (request response : Option TypeReference) (stop : Position) :
    (operations ++ [heading.operation request response stop]).flatMap Operation.marks =
      operations.flatMap Operation.marks ++
        (request.toList.map TypeReference.mark ++ response.toList.map TypeReference.mark) := by
  rw [List.flatMap_append, List.flatMap_singleton, Operation.marks, Operation.references,
    List.map_append]
  rfl

theorem InterfacePlace.marks_extendBody {declared : NamedHeading}
    {operations : List Operation} {extended : Fragment} {token : Token}
    (step : extendBody declared operations token = some extended) :
    extended.marks = operations.flatMap Operation.marks := by
  unfold extendBody at step
  split at step
  · cases step
    exact List.append_nil _
  · cases step
    exact List.append_nil _
  · cases step
    rw [Fragment.marks, Declaration.references_eq]
    exact List.map_flatMap
  · cases step

theorem InterfacePlace.addsMark_extend {declared : NamedHeading} {operations : List Operation}
    {place : InterfacePlace} {extended : Fragment} {token : Token}
    (step : place.extend declared operations token = some extended) :
    AddsMark token.span.start (operations.flatMap Operation.marks ++ place.marks)
      extended.marks := by
  unfold extend at step
  split at step
  · rw [marks_extendBody step, marks, List.append_nil]
    exact .refl
  · cases step
    exact .refl
  · cases step
    exact .refl
  · cases step
    exact .refl
  · cases step
    apply AddsMark.append_left
    exact .one (.refl _)
  · cases step
    exact .refl
  · cases step
    exact .refl
  · cases step
    exact .refl
  · rw [marks_extendBody step, NamedHeading.marks_operation]
    apply AddsMark.append_left
    rw [marks, Option.toList_none, List.map_nil, List.append_nil]
    exact .refl
  · cases step
    rw [Fragment.marks, NamedHeading.marks_operation, List.append_assoc]
    apply AddsMark.append_left
    rw [marks, marks, List.append_nil]
    exact .one (List.perm_append_singleton _ _)
  · cases step

theorem ServicePlace.marks_extendBody {declared : NamedHeading}
    {embeds implements : List TypeReference} {extended : Fragment} {token : Token}
    (step : extendBody declared embeds implements token = some extended) :
    extended.marks = (embeds ++ implements).map TypeReference.mark := by
  unfold extendBody at step
  split at step
  · cases step
    rfl
  · cases step
    rfl
  · cases step
    rw [Fragment.marks, Declaration.references_eq]
    rfl
  · cases step

theorem ServicePlace.addsMark_extend {declared : NamedHeading}
    {embeds implements : List TypeReference} {place : ServicePlace} {extended : Fragment}
    {token : Token} (step : place.extend declared embeds implements token = some extended) :
    AddsMark token.span.start ((embeds ++ implements).map TypeReference.mark)
      extended.marks := by
  unfold extend at step
  split at step
  · rw [marks_extendBody step]
    exact .refl
  · -- The embedded names stand before the implemented ones, wherever they are written.
    cases step
    rw [Fragment.marks, List.append_assoc]
    exact .one (List.perm_middle.map TypeReference.mark)
  · rw [marks_extendBody step]
    exact .refl
  · cases step
    rw [Fragment.marks, ← List.append_assoc]
    exact .one ((List.perm_append_singleton _ _).map TypeReference.mark)
  · cases step
    exact .refl
  · rw [marks_extendBody step]
    exact .refl
  · cases step

theorem Fragment.addsMark_extend {fragment extended : Fragment} {token : Token}
    (step : fragment.extend token = some extended) :
    AddsMark token.span.start fragment.marks extended.marks := by
  cases fragment with
  | importing importing =>
      rcases Option.map_eq_some_iff.mp step with ⟨next, importStep, rfl⟩
      exact ImportFragment.addsMark_extend importStep
  | afterDocumentation documentation =>
      simp only [extend] at step
      split at step <;> cases step <;> exact .refl
  | afterWord kind heading =>
      simp only [extend] at step
      split at step <;> cases step
      exact .refl
  | afterName kind declared =>
      simp only [extend] at step
      split at step <;> cases step <;> exact .refl
  | afterColon declared =>
      simp only [extend] at step
      split at step <;> cases step
      · exact .one (.refl _)
      · exact .refl
  | synonym declared reference => cases step
  | inRecord record place => exact RecordPlace.addsMark_extend step
  | inInterface declared operations place => exact InterfacePlace.addsMark_extend step
  | inService declared embeds implements place => exact ServicePlace.addsMark_extend step
  | ended declaration => cases step

/-! ## What a token adds to a draft -/

theorem Fragment.marks_begin? {fragment : Fragment} {token : Token}
    (begins : begin? token = some fragment) : fragment.marks = [] := by
  unfold begin? at begins
  split at begins <;> cases begins <;> rfl

theorem ImportFragment.marks_close? {fragment : ImportFragment} {statement : ImportStatement}
    (closes : fragment.close? = some statement) :
    statement.targets.map ImportTarget.mark = fragment.marks := by
  unfold close? at closes
  split at closes
  · cases closes
    exact List.map_append
  · cases closes
    exact List.map_append
  · cases closes

theorem Fragment.marks_close? {fragment : Fragment} {statement : Statement}
    (closes : fragment.close? = some statement) : statement.marks = fragment.marks := by
  unfold close? at closes
  split at closes
  · rcases Option.map_eq_some_iff.mp closes with ⟨importing, importCloses, rfl⟩
    exact ImportFragment.marks_close? importCloses
  · cases closes
    rw [Statement.marks, Declaration.references_eq]
    rfl
  · cases closes
    rfl
  · cases closes

namespace Draft

theorem addsMark_step {draft next : Draft} {token : Token}
    (step : draft.step token = some next) :
    AddsMark token.span.start draft.marks next.marks := by
  rcases step_cases step with ⟨fragment, extended, current, longer, rfl⟩ |
    ⟨current, begun, begins, rfl⟩ | ⟨fragment, statement, begun, current, _, closes, begins, rfl⟩
  · rw [marks, marks, current]
    exact (Fragment.addsMark_extend longer).append_left _
  · have noMarks : begun.marks = [] := Fragment.marks_begin? begins
    rw [marks, marks, current, Option.map_some, Option.getD_some, noMarks]
    exact .refl
  · have noMarks : begun.marks = [] := Fragment.marks_begin? begins
    have sameMarks : statement.marks = fragment.marks := Fragment.marks_close? closes
    rw [marks, marks, current, Option.map_some, Option.getD_some, Option.map_some, Option.getD_some,
      noMarks, List.flatMap_append, List.flatMap_singleton, sameMarks, List.append_nil]
    exact .refl

theorem marks_finish? {draft : Draft} {program : Program}
    (finishes : draft.finish? = some program) :
    program.statements.flatMap Statement.marks = draft.marks := by
  rcases draft with ⟨finished, current⟩
  cases current with
  | none =>
      cases finishes
      exact (List.append_nil _).symm
  | some fragment =>
      rcases Option.map_eq_some_iff.mp finishes with ⟨statement, closes, rfl⟩
      have sameMarks : statement.marks = fragment.marks := Fragment.marks_close? closes
      rw [marks, List.flatMap_append, List.flatMap_singleton, sameMarks, Option.map_some,
        Option.getD_some]

end Draft

/-! ## The marks of a program -/

namespace Program

theorem nodup_marks_of_parse {text : String} {program : Program}
    (parsed : parse text = .ok program) :
    (program.statements.flatMap Statement.marks).Nodup := by
  have initially : MarksBefore Draft.empty.marks Position.first :=
    { distinct := List.nodup_nil
      before := by simp [Draft.empty, Draft.marks] }
  rcases @Draft.read_invariant (fun draft => MarksBefore draft.marks)
      (fun _ _ _ _ marked follows step => marked.step follows (Draft.addsMark_step step))
      _ _ _ _ _ initially parsed with ⟨final, stop, marked, finishes⟩
  rw [Draft.marks_finish? finishes]
  exact marked.distinct

end Program

end ServiceModules
