import Mathlib.Data.List.Nodup
import ServiceModules.Proofs.Draft.Marks
import ServiceModules.Proofs.Program.Members

/-!
The places where declarations and their members begin. A token adds at most its own place to those
that a draft knows, so that no two things that can be documented begin at one place.
-/

namespace ServiceModules

def TypeExpression.starts (expression : TypeExpression) : List Position :=
  expression.members.map Member.start

def Field.starts (field : Field) : List Position := field.members.map Member.start

def Operation.start (operation : Operation) : Position := operation.span.start

namespace OpenRecord

def starts : OpenRecord → List Position
  | .ofDeclaration declared _ fields => declared.start :: fields.flatMap Field.starts
  | .ofField outer field _ fields => outer.starts ++ field.start :: fields.flatMap Field.starts

end OpenRecord

namespace RecordPlace

def starts : RecordPlace → List Position
  | .beforeField => []
  | .afterDocumentation documentation => [documentation.start]
  | .afterName field | .afterColon field => [field.start]

end RecordPlace

namespace InterfacePlace

def starts : InterfacePlace → List Position
  | .beforeOperation => []
  | .afterDocumentation documentation => [documentation.start]
  | .afterName operation | .inRequest operation | .afterRequestType operation _
  | .afterRequest operation _ _ | .afterArrow operation _ => [operation.start]

end InterfacePlace

namespace Fragment

def starts : Fragment → List Position
  | .importing _ => []
  | .afterDocumentation documentation => [documentation.start]
  | .afterWord _ heading => [heading.start]
  | .afterName _ declared | .afterColon declared | .synonym declared _
  | .inService declared _ _ _ => [declared.start]
  | .inRecord record place => record.starts ++ place.starts
  | .inInterface declared operations place =>
    declared.start :: operations.map Operation.start ++ place.starts
  | .ended declaration => (Statement.declaring declaration).starts

end Fragment

def Draft.starts (draft : Draft) : List Position :=
  draft.finished.flatMap Statement.starts ++ (draft.current.map Fragment.starts).getD []

/-! ## What a token adds to a fragment -/

variable {token : Token} {extended : Fragment}

theorem TypeExpression.starts_record (fields : List Field) (span : Span) :
    (record fields span).starts = fields.flatMap Field.starts := by
  rw [starts, members_record, List.map_flatMap]
  rfl

theorem OpenRecord.starts_addTyped (record : OpenRecord) (field : NamedHeading)
    (type : TypeExpression) :
    (record.addTyped field type).starts = record.starts ++ field.start :: type.starts := by
  have added (fields : List Field) (stop : Position) :
      (fields ++ [Field.mk field.name field.documentation type ⟨field.start, stop⟩]).flatMap
        Field.starts = fields.flatMap Field.starts ++ field.start :: type.starts := by
    rw [List.flatMap_append, List.flatMap_singleton, Field.starts, Field.members_mk]
    rfl
  cases record with
  | ofDeclaration declared start fields =>
      rw [addTyped, add, starts, starts, added, List.cons_append]
  | ofField outer owner start fields =>
      rw [addTyped, add, starts, starts, added, List.append_assoc, List.cons_append]

theorem OpenRecord.starts_close (record : OpenRecord) (token : Token) :
    (record.close token).starts = record.starts := by
  cases record with
  | ofDeclaration declared start fields =>
      exact congrArg (declared.start :: ·) (TypeExpression.starts_record fields ⟨start, _⟩)
  | ofField outer field start fields =>
      rw [close, Fragment.starts, starts_addTyped, TypeExpression.starts_record, starts,
        RecordPlace.starts, List.append_nil]

theorem RecordPlace.addsMark_starts {record : OpenRecord} {place : RecordPlace}
    (step : place.extend record token = some extended) :
    AddsMark token.span.start (record.starts ++ place.starts) extended.starts := by
  unfold extend at step
  split at step
  · cases step
    exact .append_left (.one (.refl _)) _
  · cases step
    exact .append_left (.one (.refl _)) _
  · cases step
    rw [OpenRecord.starts_close, starts, List.append_nil]
    exact .refl
  · cases step
    exact .refl
  · cases step
    exact .refl
  · cases step
    exact .refl
  · cases step
    rw [Fragment.starts, OpenRecord.starts_addTyped, starts, starts, List.append_nil]
    exact .refl
  · cases step
    rw [Fragment.starts, OpenRecord.starts, starts, starts, List.flatMap_nil, List.append_nil]
    exact .refl
  · cases step

theorem NamedHeading.start_operation (operations : List Operation) (heading : NamedHeading)
    (request response : Option TypeReference) (stop : Position) :
    (operations ++ [heading.operation request response stop]).map Operation.start =
      operations.map Operation.start ++ [heading.start] := by
  rw [List.map_append]
  rfl

theorem InterfacePlace.addsMark_starts_extendBody {declared : NamedHeading}
    {operations : List Operation}
    (step : extendBody declared operations token = some extended) :
    AddsMark token.span.start (declared.start :: operations.map Operation.start)
      extended.starts := by
  unfold extendBody at step
  split at step
  · cases step
    exact .one (List.perm_append_singleton _ _)
  · cases step
    exact .one (List.perm_append_singleton _ _)
  · cases step
    exact .inl (.of_eq (congrArg (declared.start :: ·) List.map_map))
  · cases step

theorem InterfacePlace.addsMark_starts {declared : NamedHeading} {operations : List Operation}
    {place : InterfacePlace} (step : place.extend declared operations token = some extended) :
    AddsMark token.span.start (declared.start :: operations.map Operation.start ++ place.starts)
      extended.starts := by
  unfold extend at step
  split at step
  · rw [starts, List.append_nil]
    exact addsMark_starts_extendBody step
  · cases step
    exact .refl
  · cases step
    exact .refl
  · cases step
    exact .refl
  · cases step
    exact .refl
  · cases step
    exact .refl
  · cases step
    exact .refl
  · cases step
    exact .refl
  · have added := addsMark_starts_extendBody step
    rw [NamedHeading.start_operation] at added
    exact added
  · cases step
    rw [Fragment.starts, NamedHeading.start_operation, starts, starts, List.append_nil]
    exact .refl
  · cases step

theorem ServicePlace.starts_extendBody {declared : NamedHeading}
    {embeds implements : List TypeReference}
    (step : extendBody declared embeds implements token = some extended) :
    extended.starts = [declared.start] := by
  unfold extendBody at step
  split at step <;> cases step <;> rfl

theorem ServicePlace.starts_extend {declared : NamedHeading}
    {embeds implements : List TypeReference} {place : ServicePlace}
    (step : place.extend declared embeds implements token = some extended) :
    extended.starts = [declared.start] := by
  unfold extend at step
  split at step
  · exact starts_extendBody step
  · cases step
    rfl
  · exact starts_extendBody step
  · cases step
    rfl
  · cases step
    rfl
  · exact starts_extendBody step
  · cases step

theorem Fragment.addsMark_starts {fragment : Fragment}
    (step : fragment.extend token = some extended) :
    AddsMark token.span.start fragment.starts extended.starts := by
  cases fragment with
  | importing importing =>
      rcases Option.map_eq_some_iff.mp step with ⟨next, _, rfl⟩
      exact .refl
  | afterDocumentation documentation =>
      simp only [extend] at step
      split at step <;> cases step <;> exact .refl
  | afterWord kind heading =>
      simp only [extend] at step
      split at step <;> cases step
      exact .refl
  | afterName kind declared =>
      simp only [extend] at step
      split at step <;> cases step <;> exact .refl
  | afterColon declared =>
      simp only [extend] at step
      split at step <;> cases step <;> exact .refl
  | synonym declared reference => cases step
  | inRecord record place => exact RecordPlace.addsMark_starts step
  | inInterface declared operations place => exact InterfacePlace.addsMark_starts step
  | inService declared embeds implements place =>
      rw [ServicePlace.starts_extend step]
      exact .refl
  | ended declaration => cases step

/-! ## What a token adds to a draft -/

theorem Fragment.addsMark_starts_begin? {fragment : Fragment}
    (begins : begin? token = some fragment) : AddsMark token.span.start [] fragment.starts := by
  unfold begin? at begins
  split at begins <;> cases begins
  · exact .refl
  all_goals exact .one (.refl _)

theorem Fragment.starts_close? {fragment : Fragment} {statement : Statement}
    (closes : fragment.close? = some statement) : statement.starts = fragment.starts := by
  unfold close? at closes
  split at closes
  · rcases Option.map_eq_some_iff.mp closes with ⟨importing, _, rfl⟩
    rfl
  · cases closes
    rfl
  · cases closes
    rfl
  · cases closes

namespace Draft

theorem addsMark_starts {draft next : Draft} (step : draft.step token = some next) :
    AddsMark token.span.start draft.starts next.starts := by
  rcases step_cases step with ⟨fragment, extended, current, longer, rfl⟩ |
    ⟨current, begun, begins, rfl⟩ | ⟨fragment, statement, begun, current, _, closes, begins, rfl⟩
  · rw [starts, starts, current]
    exact (Fragment.addsMark_starts longer).append_left _
  · rw [starts, starts, current]
    exact (Fragment.addsMark_starts_begin? begins).append_left _
  · have sameStarts : statement.starts = fragment.starts := Fragment.starts_close? closes
    have added := (Fragment.addsMark_starts_begin? begins).append_left
      (draft.finished.flatMap Statement.starts ++ fragment.starts)
    rw [List.append_nil] at added
    rw [starts, starts, current, Option.map_some, Option.getD_some, Option.map_some,
      Option.getD_some, List.flatMap_append, List.flatMap_singleton, sameStarts]
    exact added

theorem starts_finish? {draft : Draft} {program : Program}
    (finishes : draft.finish? = some program) : program.starts = draft.starts := by
  rcases draft with ⟨finished, current⟩
  cases current with
  | none =>
      cases finishes
      exact (List.append_nil _).symm
  | some fragment =>
      rcases Option.map_eq_some_iff.mp finishes with ⟨statement, closes, rfl⟩
      rw [Program.starts, starts, List.flatMap_append, List.flatMap_singleton,
        Fragment.starts_close? closes]
      rfl

end Draft

/-! ## The places of a program -/

namespace Program

theorem nodup_starts_of_parse {text : String} {program : Program}
    (parsed : parse text = .ok program) : program.starts.Nodup := by
  have initially : MarksBefore Draft.empty.starts Position.first :=
    { distinct := List.nodup_nil
      before := by simp [Draft.empty, Draft.starts] }
  rcases @Draft.read_invariant (fun draft => MarksBefore draft.starts)
      (fun _ _ _ _ marked follows step => marked.step follows (Draft.addsMark_starts step))
      _ _ _ _ _ initially parsed with ⟨final, stop, marked, finishes⟩
  rw [Draft.starts_finish? finishes]
  exact marked.distinct

/-- Where a member begins, nothing else begins that can be documented. -/
theorem count_start_of_parse {text : String} {program : Program}
    (parsed : parse text = .ok program) {member : Member} (isMember : member ∈ program.members) :
    program.starts.count member.start = 1 :=
  List.count_eq_one_of_mem (nodup_starts_of_parse parsed) (start_mem_starts isMember)

end Program

end ServiceModules
