import ServiceModules.Module.Basic
import ServiceModules.Proofs.Draft.Reading
import ServiceModules.Proofs.Program.Documentation

/-!
Reading without documentation. A reading that drops documentation where a heading follows it comes,
token by token, to the draft that a reading with documentation comes to, without its documentation.
It looks for the same terminals and expects the same, so that a text is read to the same end.
-/

namespace ServiceModules

/-! ## Drafts without documentation -/

def Heading.withoutDocumentation (heading : Heading) : Heading :=
  { heading with documentation := none }

def NamedHeading.withoutDocumentation (heading : NamedHeading) : NamedHeading :=
  { heading.toHeading.withoutDocumentation with name := heading.name }

def OpenRecord.withoutDocumentation : OpenRecord → OpenRecord
  | .ofDeclaration declared start fields =>
    .ofDeclaration declared.withoutDocumentation start (fields.map Field.withoutDocumentation)
  | .ofField outer field start fields =>
    .ofField outer.withoutDocumentation field.withoutDocumentation start
      (fields.map Field.withoutDocumentation)

/-- Documentation that no heading follows yet stays. -/
def RecordPlace.withoutDocumentation : RecordPlace → RecordPlace
  | .beforeField => .beforeField
  | .afterDocumentation documentation => .afterDocumentation documentation
  | .afterName field => .afterName field.withoutDocumentation
  | .afterColon field => .afterColon field.withoutDocumentation

def InterfacePlace.withoutDocumentation : InterfacePlace → InterfacePlace
  | .beforeOperation => .beforeOperation
  | .afterDocumentation documentation => .afterDocumentation documentation
  | .afterName operation => .afterName operation.withoutDocumentation
  | .inRequest operation => .inRequest operation.withoutDocumentation
  | .afterRequestType operation request => .afterRequestType operation.withoutDocumentation request
  | .afterRequest operation request stop =>
    .afterRequest operation.withoutDocumentation request stop
  | .afterArrow operation request => .afterArrow operation.withoutDocumentation request

def Fragment.withoutDocumentation : Fragment → Fragment
  | .importing fragment => .importing fragment
  | .afterDocumentation documentation => .afterDocumentation documentation
  | .afterWord kind heading => .afterWord kind heading.withoutDocumentation
  | .afterName kind declared => .afterName kind declared.withoutDocumentation
  | .afterColon declared => .afterColon declared.withoutDocumentation
  | .synonym declared reference => .synonym declared.withoutDocumentation reference
  | .inRecord record place => .inRecord record.withoutDocumentation place.withoutDocumentation
  | .inInterface declared operations place =>
    .inInterface declared.withoutDocumentation (operations.map Operation.withoutDocumentation)
      place.withoutDocumentation
  | .inService declared embeds implements place =>
    .inService declared.withoutDocumentation embeds implements place
  | .ended declaration => .ended declaration.withoutDocumentation

def Draft.withoutDocumentation (draft : Draft) : Draft :=
  ⟨draft.finished.map Statement.withoutDocumentation,
    draft.current.map Fragment.withoutDocumentation⟩

/-! ## What is looked for -/

theorem RecordPlace.sought_withoutDocumentation (place : RecordPlace) :
    place.withoutDocumentation.sought = place.sought := by
  cases place <;> rfl

theorem InterfacePlace.sought_withoutDocumentation (place : InterfacePlace) :
    place.withoutDocumentation.sought = place.sought := by
  cases place <;> rfl

theorem Fragment.sought_withoutDocumentation (fragment : Fragment) :
    fragment.withoutDocumentation.sought = fragment.sought := by
  cases fragment with
  | inRecord record place => exact place.sought_withoutDocumentation
  | inInterface declared operations place => exact place.sought_withoutDocumentation
  | afterName kind declared => cases kind <;> rfl
  | _ => rfl

theorem Draft.sought_withoutDocumentation (draft : Draft) :
    draft.withoutDocumentation.sought = draft.sought := by
  rcases draft with ⟨finished, current⟩
  cases current with
  | none => rfl
  | some fragment => exact fragment.sought_withoutDocumentation

theorem Draft.isDocumented_withoutDocumentation (draft : Draft) :
    draft.withoutDocumentation.isDocumented = draft.isDocumented := by
  rcases draft with ⟨finished, current⟩
  rcases current with _ | fragment
  · rfl
  · cases fragment with
    | inRecord record place => cases place <;> rfl
    | inInterface declared operations place => cases place <;> rfl
    | _ => rfl

/-! ## Adding a token -/

theorem TypeExpression.span_withoutDocumentation (expression : TypeExpression) :
    expression.withoutDocumentation.span = expression.span := by
  cases expression <;> rfl

theorem OpenRecord.addTyped_withoutDocumentation (record : OpenRecord) (field : NamedHeading)
    (type : TypeExpression) :
    record.withoutDocumentation.addTyped field.withoutDocumentation type.withoutDocumentation =
      (record.addTyped field type).withoutDocumentation := by
  cases record <;>
    simp [addTyped, add, withoutDocumentation, NamedHeading.withoutDocumentation,
      Heading.withoutDocumentation, Field.withoutDocumentation,
      TypeExpression.span_withoutDocumentation]

theorem TypeExpression.withoutDocumentation_record (fields : List Field) (span : Span) :
    (record fields span).withoutDocumentation =
      record (fields.map Field.withoutDocumentation) span := by
  rw [withoutDocumentation, Field.listWithoutDocumentation_eq_map]

theorem OpenRecord.close_withoutDocumentation (record : OpenRecord) (token : Token) :
    record.withoutDocumentation.close token = (record.close token).withoutDocumentation := by
  cases record with
  | ofDeclaration declared start fields =>
      simp [close, withoutDocumentation, Fragment.withoutDocumentation, NamedHeading.declare,
        Declaration.withoutDocumentation, DeclarationBody.withoutDocumentation,
        NamedHeading.withoutDocumentation, Heading.withoutDocumentation,
        TypeExpression.withoutDocumentation_record]
  | ofField outer field start fields =>
      have typed := outer.addTyped_withoutDocumentation field
        (.record fields ⟨start, token.span.stop⟩)
      rw [TypeExpression.withoutDocumentation_record] at typed
      simp only [close, withoutDocumentation, Fragment.withoutDocumentation,
        RecordPlace.withoutDocumentation, typed]

variable (keepsDocumentation : Bool)

theorem RecordPlace.extend_withoutDocumentation (record : OpenRecord) (place : RecordPlace)
    (token : Token) :
    place.withoutDocumentation.extend record.withoutDocumentation token false =
      (place.extend record token keepsDocumentation).map Fragment.withoutDocumentation := by
  rcases token with ⟨terminal, text, span⟩
  cases place with
  | beforeField =>
      cases terminal with
      | rightBrace => exact congrArg some (record.close_withoutDocumentation _)
      | _ => rfl
  | afterColon field =>
      cases terminal with
      | name =>
          exact congrArg (fun longer => some (Fragment.inRecord longer .beforeField))
            (record.addTyped_withoutDocumentation field (.named (.ofToken ⟨.name, text, span⟩)))
      | _ => rfl
  | afterDocumentation documentation | afterName field => cases terminal <;> rfl

theorem InterfacePlace.extendBody_withoutDocumentation (declared : NamedHeading)
    (operations : List Operation) (token : Token) :
    extendBody declared.withoutDocumentation (operations.map Operation.withoutDocumentation) token =
      (extendBody declared operations token).map Fragment.withoutDocumentation := by
  rcases token with ⟨terminal, text, span⟩
  cases terminal <;> rfl

theorem InterfacePlace.extend_withoutDocumentation (declared : NamedHeading)
    (operations : List Operation) (place : InterfacePlace) (token : Token) :
    place.withoutDocumentation.extend declared.withoutDocumentation
        (operations.map Operation.withoutDocumentation) token false =
      (place.extend declared operations token keepsDocumentation).map
        Fragment.withoutDocumentation := by
  cases place with
  | beforeOperation => exact extendBody_withoutDocumentation declared operations token
  | afterRequest operation request stop =>
      have body := extendBody_withoutDocumentation declared
        (operations ++ [operation.operation request none stop]) token
      rw [List.map_append] at body
      rcases token with ⟨terminal, text, span⟩
      cases terminal with
      | arrow => rfl
      | _ => exact body
  | afterArrow operation request =>
      rcases token with ⟨terminal, text, span⟩
      cases terminal with
      | name =>
          simp only [withoutDocumentation, extend, Option.map_some,
            Fragment.withoutDocumentation, List.map_append]
          rfl
      | _ => rfl
  | _ =>
      rcases token with ⟨terminal, text, span⟩
      cases terminal <;> rfl

theorem ServicePlace.extend_withoutDocumentation (declared : NamedHeading)
    (embeds implements : List TypeReference) (place : ServicePlace) (token : Token) :
    place.extend declared.withoutDocumentation embeds implements token =
      (place.extend declared embeds implements token).map Fragment.withoutDocumentation := by
  rcases token with ⟨terminal, text, span⟩
  cases place <;> cases terminal <;> rfl

theorem Fragment.begin?_withoutDocumentation (token : Token) :
    (begin? token).map Fragment.withoutDocumentation = begin? token := by
  rcases token with ⟨terminal, text, span⟩
  cases terminal <;> rfl

theorem Fragment.extend_withoutDocumentation (fragment : Fragment) (token : Token) :
    fragment.withoutDocumentation.extend token false =
      (fragment.extend token keepsDocumentation).map Fragment.withoutDocumentation := by
  cases fragment with
  | importing fragment =>
      simp only [withoutDocumentation, extend, Option.map_map]
      rfl
  | inRecord record place => exact place.extend_withoutDocumentation _ record token
  | inInterface declared operations place =>
      exact place.extend_withoutDocumentation _ declared operations token
  | inService declared embeds implements place =>
      exact place.extend_withoutDocumentation declared embeds implements token
  | afterName kind declared =>
      rcases token with ⟨terminal, text, span⟩
      cases kind <;> cases terminal <;> rfl
  | _ =>
      rcases token with ⟨terminal, text, span⟩
      cases terminal <;> rfl

theorem Fragment.close?_withoutDocumentation (fragment : Fragment) :
    fragment.withoutDocumentation.close? =
      fragment.close?.map Statement.withoutDocumentation := by
  cases fragment with
  | importing fragment =>
      simp only [withoutDocumentation, close?, Option.map_map]
      rfl
  | _ => rfl

namespace Draft

/-- One step: to drop documentation and to keep it differ in the documentation alone. -/
theorem step_withoutDocumentation (draft : Draft) (token : Token) :
    draft.withoutDocumentation.step token false =
      (draft.step token keepsDocumentation).map withoutDocumentation := by
  have begun : ∀ statements : List Statement,
      (Fragment.begin? token).map (fun fragment =>
          Draft.mk (statements.map Statement.withoutDocumentation) (some fragment)) =
        ((Fragment.begin? token).map fun fragment =>
          Draft.mk statements (some fragment)).map withoutDocumentation := by
    intro statements
    have erased := congrArg (Option.map fun fragment =>
        Draft.mk (statements.map Statement.withoutDocumentation) (some fragment))
      (Fragment.begin?_withoutDocumentation token)
    rw [← erased, Option.map_map, Option.map_map]
    rfl
  rcases draft with ⟨finished, current⟩
  cases current with
  | none => exact begun finished
  | some fragment =>
      simp only [step, withoutDocumentation, Option.map_some,
        fragment.extend_withoutDocumentation keepsDocumentation token,
        fragment.close?_withoutDocumentation]
      cases fragment.extend token keepsDocumentation with
      | some longer => rfl
      | none =>
          cases fragment.close? with
          | none => rfl
          | some statement =>
              have finishes := begun (finished ++ [statement])
              rw [List.map_append] at finishes
              exact finishes

theorem finish?_withoutDocumentation (draft : Draft) :
    draft.withoutDocumentation.finish? =
      draft.finish?.map Program.withoutDocumentation := by
  rcases draft with ⟨finished, current⟩
  cases current with
  | none => rfl
  | some fragment =>
      simp only [finish?, withoutDocumentation, Option.map_some,
        fragment.close?_withoutDocumentation, Option.map_map]
      cases fragment.close? with
      | none => rfl
      | some statement => simp [Program.withoutDocumentation]

/-! ## What is expected -/

theorem accepts_withoutDocumentation (draft : Draft) (terminal : Terminal) :
    draft.withoutDocumentation.accepts terminal = draft.accepts terminal := by
  have dropping := draft.withoutDocumentation.step_withoutDocumentation true
    ⟨terminal, [], default⟩
  have again := draft.withoutDocumentation.step_withoutDocumentation false
    ⟨terminal, [], default⟩
  have here := draft.step_withoutDocumentation true ⟨terminal, [], default⟩
  rw [dropping, here] at again
  have same := congrArg Option.isSome again
  simp only [Option.isSome_map] at same
  exact same

theorem expected_withoutDocumentation (draft : Draft) :
    draft.withoutDocumentation.expected = draft.expected := by
  have accepts : draft.withoutDocumentation.accepts = draft.accepts :=
    funext draft.accepts_withoutDocumentation
  rw [expected, expected, draft.finish?_withoutDocumentation, Option.isSome_map, accepts]

theorem expectedInstead_withoutDocumentation (draft : Draft) :
    draft.withoutDocumentation.expectedInstead = draft.expectedInstead := by
  rw [expectedInstead, expectedInstead, draft.expected_withoutDocumentation,
    draft.isDocumented_withoutDocumentation]

end Draft

/-! ## The whole text -/

namespace Reading

theorem outcome_withoutDocumentation (draft : Draft) (position : Position) (rest : List Char)
    (last : Span) :
    outcome ⟨draft.withoutDocumentation, position, rest⟩ last false =
      (outcome ⟨draft, position, rest⟩ last keepsDocumentation).map
        Program.withoutDocumentation := by
  induction length : rest.length using Nat.strong_induction_on
    generalizing draft position rest last with
  | _ count induction =>
      rcases gap_or_missed_or_found draft.sought rest with gapped |
        ⟨blanks, character, behind, rfl, gapped, missed⟩ |
        ⟨gap, found, behind, rfl, gapped, scanned⟩
      · rw [outcome_of_gap gapped last keepsDocumentation, outcome_of_gap gapped last false,
          draft.finish?_withoutDocumentation, draft.expected_withoutDocumentation]
        cases draft.finish? <;> rfl
      · have missedToo := missed
        rw [← draft.sought_withoutDocumentation] at missedToo
        rw [outcome_of_missed gapped missed last keepsDocumentation,
          outcome_of_missed gapped missedToo last false, draft.expected_withoutDocumentation]
        cases Lexeme.scan Terminal.all (character :: behind) <;> rfl
      · have shorter : behind.length < count := by
          have positive := Lexeme.length_pos_of_scan scanned
          simp only [List.length_append] at length
          omega
        have scannedToo := scanned
        rw [← draft.sought_withoutDocumentation] at scannedToo
        rw [outcome_of_found gapped scanned last keepsDocumentation,
          outcome_of_found gapped scannedToo last false,
          draft.step_withoutDocumentation keepsDocumentation,
          draft.expectedInstead_withoutDocumentation]
        cases draft.step _ keepsDocumentation with
        | none => rfl
        | some next => exact induction _ shorter next _ behind _ rfl

end Reading

/-- Dropping documentation while a text is read comes to erasing it from the program. -/
theorem Program.parse_false (text : String) :
    parse text false = (parse text keepsDocumentation).map withoutDocumentation :=
  Reading.outcome_withoutDocumentation keepsDocumentation .empty .first text.toList noToken

theorem Program.ofText_eq_parse (uri text : String) :
    ofText keepsDocumentation uri text =
      match parse text with
      | .error rejection => .error (.rejected uri text rejection)
      | .ok program =>
          .ok (if keepsDocumentation then program else program.withoutDocumentation) := by
  cases keepsDocumentation with
  | true => rw [ofText]; cases parse text <;> rfl
  | false => rw [ofText, parse_false true]; cases parse text <;> rfl

end ServiceModules
