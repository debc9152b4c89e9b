import ServiceModules.Proofs.Draft.Step
import ServiceModules.Proofs.Program.Retouch

/-!
Retouching drafts. Adding a token and retouching may change places: a draft takes the same tokens
after a retouch, and comes to the retouched draft. The token itself must not begin anything that
gets a new line, and open documentation must have a line already.
-/

namespace ServiceModules

def Token.retouch (retouch : Retouch) (token : Token) : Token :=
  { token with span := token.span.retouch retouch }

def Documentation.retouch (retouch : Retouch) (documentation : Documentation) : Documentation :=
  { lines := ((retouch.line? documentation.start).map String.toList).toList ++ documentation.lines
    start := retouch.start documentation.start }

def Heading.retouch (retouch : Retouch) (heading : Heading) : Heading :=
  { documentation := retouch.documentation heading.start heading.documentation
    start := retouch.start heading.start }

def NamedHeading.retouch (retouch : Retouch) (heading : NamedHeading) : NamedHeading :=
  { heading.toHeading.retouch retouch with name := heading.name }

def ImportClause.retouch (retouch : Retouch) (clause : ImportClause) : ImportClause :=
  { start := retouch.start clause.start
    path := clause.path
    pathSpan := clause.pathSpan.retouch retouch
    targets := clause.targets.map (ImportTarget.retouch retouch) }

def ImportFragment.retouch (retouch : Retouch) : ImportFragment → ImportFragment
  | .afterFrom start => .afterFrom (retouch.start start)
  | .afterPath start path span => .afterPath (retouch.start start) path (span.retouch retouch)
  | .beforeTarget clause => .beforeTarget (clause.retouch retouch)
  | .afterTarget clause last => .afterTarget (clause.retouch retouch) (last.retouch retouch)
  | .afterAs clause last => .afterAs (clause.retouch retouch) (last.retouch retouch)
  | .afterRenaming clause last => .afterRenaming (clause.retouch retouch) (last.retouch retouch)

def OpenRecord.retouch (retouch : Retouch) : OpenRecord → OpenRecord
  | .ofDeclaration declared start fields =>
    .ofDeclaration (declared.retouch retouch) (retouch.start start)
      (fields.map (Field.retouch retouch))
  | .ofField outer field start fields =>
    .ofField (outer.retouch retouch) (field.retouch retouch) (retouch.start start)
      (fields.map (Field.retouch retouch))

def RecordPlace.retouch (retouch : Retouch) : RecordPlace → RecordPlace
  | .beforeField => .beforeField
  | .afterDocumentation documentation => .afterDocumentation (documentation.retouch retouch)
  | .afterName field => .afterName (field.retouch retouch)
  | .afterColon field => .afterColon (field.retouch retouch)

def InterfacePlace.retouch (retouch : Retouch) : InterfacePlace → InterfacePlace
  | .beforeOperation => .beforeOperation
  | .afterDocumentation documentation => .afterDocumentation (documentation.retouch retouch)
  | .afterName operation => .afterName (operation.retouch retouch)
  | .inRequest operation => .inRequest (operation.retouch retouch)
  | .afterRequestType operation request =>
    .afterRequestType (operation.retouch retouch) (request.retouch retouch)
  | .afterRequest operation request stop =>
    .afterRequest (operation.retouch retouch) (request.map (TypeReference.retouch retouch))
      (retouch.stop stop)
  | .afterArrow operation request =>
    .afterArrow (operation.retouch retouch) (request.map (TypeReference.retouch retouch))

def Fragment.retouch (retouch : Retouch) : Fragment → Fragment
  | .importing fragment => .importing (fragment.retouch retouch)
  | .afterDocumentation documentation => .afterDocumentation (documentation.retouch retouch)
  | .afterWord kind heading => .afterWord kind (heading.retouch retouch)
  | .afterName kind declared => .afterName kind (declared.retouch retouch)
  | .afterColon declared => .afterColon (declared.retouch retouch)
  | .synonym declared reference => .synonym (declared.retouch retouch) (reference.retouch retouch)
  | .inRecord record place => .inRecord (record.retouch retouch) (place.retouch retouch)
  | .inInterface declared operations place =>
    .inInterface (declared.retouch retouch) (operations.map (Operation.retouch retouch))
      (place.retouch retouch)
  | .inService declared embeds implements place =>
    .inService (declared.retouch retouch) (embeds.map (TypeReference.retouch retouch))
      (implements.map (TypeReference.retouch retouch)) place
  | .ended declaration => .ended (declaration.retouch retouch)

def Draft.retouch (retouch : Retouch) (draft : Draft) : Draft :=
  ⟨draft.finished.map (Statement.retouch retouch), draft.current.map (Fragment.retouch retouch)⟩

variable {retouch : Retouch}

/-! ## What is looked for -/

@[simp] theorem ImportFragment.sought_retouch (fragment : ImportFragment) :
    (fragment.retouch retouch).sought = fragment.sought := by
  cases fragment <;> rfl

@[simp] theorem RecordPlace.sought_retouch (place : RecordPlace) :
    (place.retouch retouch).sought = place.sought := by
  cases place <;> rfl

@[simp] theorem InterfacePlace.sought_retouch (place : InterfacePlace) :
    (place.retouch retouch).sought = place.sought := by
  cases place <;> rfl

@[simp] theorem Fragment.sought_retouch (fragment : Fragment) :
    (fragment.retouch retouch).sought = fragment.sought := by
  cases fragment with
  | importing fragment => exact fragment.sought_retouch
  | inRecord record place => exact place.sought_retouch
  | inInterface declared operations place => exact place.sought_retouch
  | afterName kind declared => cases kind <;> rfl
  | _ => rfl

@[simp] theorem Draft.sought_retouch (draft : Draft) :
    (draft.retouch retouch).sought = draft.sought := by
  rcases draft with ⟨finished, current⟩
  cases current with
  | none => rfl
  | some fragment => exact fragment.sought_retouch

/-! ## Adding a token -/

theorem Retouch.documentation_of_quiet {start : Position} (quiet : retouch.line? start = none)
    (documentation : Option String) :
    retouch.documentation start documentation = documentation := by
  rw [Retouch.documentation, quiet]

theorem Documentation.retouch_ofToken {token : Token}
    (quiet : retouch.line? token.span.start = none) :
    (Documentation.ofToken token).retouch retouch = .ofToken (token.retouch retouch) := by
  rw [Documentation.retouch, ofToken, quiet]
  rfl

theorem Documentation.retouch_add (documentation : Documentation) (token : Token) :
    (documentation.add token).retouch retouch =
      (documentation.retouch retouch).add (token.retouch retouch) := by
  rw [Documentation.retouch, Documentation.retouch, add, add, List.append_assoc]
  rfl

theorem Heading.retouch_plain {token : Token} (quiet : retouch.line? token.span.start = none) :
    (Heading.plain token).retouch retouch = .plain (token.retouch retouch) := by
  rw [Heading.retouch, plain, Retouch.documentation_of_quiet quiet]
  rfl

theorem Documentation.text_retouch {documentation : Documentation}
    (written : retouch.line? documentation.start = none ∨ documentation.lines ≠ []) :
    retouch.documentation documentation.start (some documentation.text) =
      some (documentation.retouch retouch).text := by
  rcases documentation with ⟨lines, start⟩
  rw [Retouch.documentation, Documentation.retouch, text, text]
  cases new : retouch.line? start with
  | none => rfl
  | some line =>
      cases lines with
      | nil =>
          rcases written with quiet | written
          · cases new.symm.trans quiet
          · exact absurd rfl written
      | cons head rest => simp [List.intercalate, String.append_assoc]

theorem Heading.retouch_documented {documentation : Documentation}
    (written : retouch.line? documentation.start = none ∨ documentation.lines ≠ []) :
    (Heading.documented documentation).retouch retouch =
      .documented (documentation.retouch retouch) := by
  rw [Heading.retouch, documented_kept, Documentation.text_retouch written]
  rfl

theorem Heading.retouch_named (heading : Heading) (token : Token) :
    (heading.named token).retouch retouch =
      (heading.retouch retouch).named (token.retouch retouch) := rfl

theorem OpenRecord.retouch_add (record : OpenRecord) (field : Field) :
    (record.add field).retouch retouch = (record.retouch retouch).add (field.retouch retouch) := by
  cases record <;> simp [add, OpenRecord.retouch]

theorem TypeExpression.span_retouch (expression : TypeExpression) :
    (expression.retouch retouch).span = expression.span.retouch retouch := by
  cases expression <;> rfl

theorem OpenRecord.retouch_addTyped (record : OpenRecord) (field : NamedHeading)
    (type : TypeExpression) :
    (record.addTyped field type).retouch retouch =
      (record.retouch retouch).addTyped (field.retouch retouch) (type.retouch retouch) := by
  rw [addTyped, addTyped, retouch_add, Field.retouch, TypeExpression.span_retouch]
  rfl

theorem TypeExpression.retouch_record (fields : List Field) (span : Span) :
    (TypeExpression.record fields span).retouch retouch =
      .record (fields.map (Field.retouch retouch)) (span.retouch retouch) := by
  rw [TypeExpression.retouch, Field.listRetouch_eq_map]

theorem NamedHeading.retouch_declare (heading : NamedHeading) (body : DeclarationBody)
    (stop : Position) :
    (heading.declare body stop).retouch retouch =
      (heading.retouch retouch).declare (body.retouch retouch) (retouch.stop stop) := rfl

theorem NamedHeading.retouch_operation (heading : NamedHeading)
    (request response : Option TypeReference) (stop : Position) :
    (heading.operation request response stop).retouch retouch =
      (heading.retouch retouch).operation (request.map (TypeReference.retouch retouch))
        (response.map (TypeReference.retouch retouch)) (retouch.stop stop) := rfl

theorem OpenRecord.retouch_close (record : OpenRecord) (token : Token) :
    (record.close token).retouch retouch =
      (record.retouch retouch).close (token.retouch retouch) := by
  cases record with
  | ofDeclaration declared start fields =>
      rw [close, Fragment.retouch, NamedHeading.retouch_declare, DeclarationBody.retouch,
        TypeExpression.retouch_record]
      rfl
  | ofField outer field start fields =>
      rw [close, Fragment.retouch, retouch_addTyped, TypeExpression.retouch_record]
      rfl

theorem ImportFragment.extend_retouch (fragment : ImportFragment) (token : Token) :
    (fragment.retouch retouch).extend (token.retouch retouch) =
      (fragment.extend token).map (ImportFragment.retouch retouch) := by
  rcases token with ⟨terminal, text, span⟩
  cases fragment with
  | afterTarget clause last | afterRenaming clause last =>
      cases terminal with
      | comma =>
          simp [ImportFragment.retouch, ImportFragment.extend, Token.retouch, ImportClause.retouch,
            ImportClause.add]
      | _ => rfl
  | _ => cases terminal <;> rfl

def RecordPlace.documentation? : RecordPlace → Option Documentation
  | .afterDocumentation documentation => some documentation
  | _ => none

def InterfacePlace.documentation? : InterfacePlace → Option Documentation
  | .afterDocumentation documentation => some documentation
  | _ => none

def Fragment.documentation? : Fragment → Option Documentation
  | .afterDocumentation documentation => some documentation
  | .inRecord _ place => place.documentation?
  | .inInterface _ _ place => place.documentation?
  | _ => none

def Draft.documentation? (draft : Draft) : Option Documentation :=
  draft.current.bind Fragment.documentation?

theorem RecordPlace.extend_retouch (record : OpenRecord) (place : RecordPlace) {token : Token}
    (quiet : retouch.line? token.span.start = none)
    (written : ∀ documentation ∈ place.documentation?,
      retouch.line? documentation.start = none ∨ documentation.lines ≠ []) :
    (place.retouch retouch).extend (record.retouch retouch) (token.retouch retouch) =
      (place.extend record token).map (Fragment.retouch retouch) := by
  rcases token with ⟨terminal, text, span⟩
  cases place with
  | beforeField =>
      cases terminal with
      | docComment =>
          simp only [extend, Option.map_some, Fragment.retouch, RecordPlace.retouch,
            Documentation.retouch_ofToken quiet]
          rfl
      | name =>
          simp only [extend, Option.map_some, Fragment.retouch, RecordPlace.retouch,
            Heading.retouch_named, Heading.retouch_plain quiet]
          rfl
      | rightBrace =>
          simp only [extend, Option.map_some, OpenRecord.retouch_close]
          rfl
      | _ => rfl
  | afterDocumentation documentation =>
      cases terminal with
      | docComment =>
          simp only [extend, Option.map_some, Fragment.retouch, RecordPlace.retouch,
            Documentation.retouch_add]
          rfl
      | name =>
          simp only [extend, Option.map_some, Fragment.retouch, RecordPlace.retouch,
            Heading.retouch_named, Heading.retouch_documented (written documentation rfl)]
          rfl
      | _ => rfl
  | afterName field => cases terminal <;> rfl
  | afterColon field =>
      cases terminal with
      | name =>
          simp only [extend, Option.map_some, Fragment.retouch, OpenRecord.retouch_addTyped]
          rfl
      | _ => rfl

theorem InterfacePlace.extendBody_retouch (declared : NamedHeading) (operations : List Operation)
    {token : Token} (quiet : retouch.line? token.span.start = none) :
    extendBody (declared.retouch retouch) (operations.map (Operation.retouch retouch))
        (token.retouch retouch) =
      (extendBody declared operations token).map (Fragment.retouch retouch) := by
  rcases token with ⟨terminal, text, span⟩
  cases terminal with
  | docComment =>
      simp only [extendBody, Option.map_some, Fragment.retouch, InterfacePlace.retouch,
        Documentation.retouch_ofToken quiet]
      rfl
  | name =>
      simp only [extendBody, Option.map_some, Fragment.retouch, InterfacePlace.retouch,
        Heading.retouch_named, Heading.retouch_plain quiet]
      rfl
  | _ => rfl

theorem InterfacePlace.extend_retouch (declared : NamedHeading) (operations : List Operation)
    (place : InterfacePlace) {token : Token} (quiet : retouch.line? token.span.start = none)
    (written : ∀ documentation ∈ place.documentation?,
      retouch.line? documentation.start = none ∨ documentation.lines ≠ []) :
    (place.retouch retouch).extend (declared.retouch retouch)
        (operations.map (Operation.retouch retouch)) (token.retouch retouch) =
      (place.extend declared operations token).map (Fragment.retouch retouch) := by
  cases place with
  | beforeOperation => exact extendBody_retouch declared operations quiet
  | afterRequest operation request stop =>
      have body := extendBody_retouch declared
        (operations ++ [operation.operation request none stop]) quiet
      rw [List.map_append] at body
      rcases token with ⟨terminal, text, span⟩
      cases terminal with
      | arrow => rfl
      | _ => exact body
  | afterDocumentation documentation =>
      rcases token with ⟨terminal, text, span⟩
      cases terminal with
      | docComment =>
          simp only [extend, Option.map_some, Fragment.retouch, InterfacePlace.retouch,
            Documentation.retouch_add]
          rfl
      | name =>
          simp only [extend, Option.map_some, Fragment.retouch, InterfacePlace.retouch,
            Heading.retouch_named, Heading.retouch_documented (written documentation rfl)]
          rfl
      | _ => rfl
  | afterArrow operation request =>
      rcases token with ⟨terminal, text, span⟩
      cases terminal with
      | name =>
          simp only [extend, Option.map_some, Fragment.retouch, InterfacePlace.retouch,
            List.map_append, List.map_singleton, NamedHeading.retouch_operation]
          rfl
      | _ => rfl
  | _ =>
      rcases token with ⟨terminal, text, span⟩
      cases terminal <;> rfl

theorem ServicePlace.extendBody_retouch (declared : NamedHeading)
    (embeds implements : List TypeReference) (token : Token) :
    extendBody (declared.retouch retouch) (embeds.map (TypeReference.retouch retouch))
        (implements.map (TypeReference.retouch retouch)) (token.retouch retouch) =
      (extendBody declared embeds implements token).map (Fragment.retouch retouch) := by
  rcases token with ⟨terminal, text, span⟩
  cases terminal <;> rfl

theorem ServicePlace.extend_retouch (declared : NamedHeading)
    (embeds implements : List TypeReference) (place : ServicePlace) (token : Token) :
    place.extend (declared.retouch retouch) (embeds.map (TypeReference.retouch retouch))
        (implements.map (TypeReference.retouch retouch)) (token.retouch retouch) =
      (place.extend declared embeds implements token).map (Fragment.retouch retouch) := by
  cases place with
  | beforeItem => exact extendBody_retouch declared embeds implements token
  | afterEmbedded => exact extendBody_retouch declared embeds implements token
  | afterImplemented =>
      rcases token with ⟨terminal, text, span⟩
      cases terminal <;> rfl
  | afterEmbeds | beforeImplemented =>
      rcases token with ⟨terminal, text, span⟩
      cases terminal with
      | name =>
          simp only [extend, Option.map_some, Fragment.retouch, List.map_append,
            List.map_singleton]
          rfl
      | _ => rfl

theorem Fragment.begin?_retouch {token : Token} (quiet : retouch.line? token.span.start = none) :
    begin? (token.retouch retouch) = (begin? token).map (Fragment.retouch retouch) := by
  rcases token with ⟨terminal, text, span⟩
  cases terminal with
  | docComment =>
      simp only [begin?, Option.map_some, Fragment.retouch, Documentation.retouch_ofToken quiet]
      rfl
  | typeWord | interfaceWord | serviceWord =>
      simp only [begin?, Option.map_some, Fragment.retouch, Heading.retouch_plain quiet]
      rfl
  | _ => rfl

theorem Fragment.extend_retouch (fragment : Fragment) {token : Token}
    (quiet : retouch.line? token.span.start = none)
    (written : ∀ documentation ∈ fragment.documentation?,
      retouch.line? documentation.start = none ∨ documentation.lines ≠ []) :
    (fragment.retouch retouch).extend (token.retouch retouch) =
      (fragment.extend token).map (Fragment.retouch retouch) := by
  cases fragment with
  | importing fragment =>
      simp only [Fragment.retouch, extend, fragment.extend_retouch, Option.map_map]
      rfl
  | inRecord record place => exact place.extend_retouch record quiet written
  | inInterface declared operations place =>
      exact place.extend_retouch declared operations quiet written
  | inService declared embeds implements place =>
      exact place.extend_retouch declared embeds implements token
  | afterDocumentation documentation =>
      rcases token with ⟨terminal, text, span⟩
      cases terminal with
      | docComment =>
          simp only [extend, Option.map_some, Fragment.retouch, Documentation.retouch_add]
          rfl
      | typeWord | interfaceWord | serviceWord =>
          simp only [extend, Option.map_some, Fragment.retouch,
            Heading.retouch_documented (written documentation rfl)]
          rfl
      | _ => rfl
  | afterName kind declared =>
      rcases token with ⟨terminal, text, span⟩
      cases kind <;> cases terminal <;> rfl
  | _ =>
      rcases token with ⟨terminal, text, span⟩
      cases terminal <;> rfl

/-! ## The end of a statement -/

theorem ImportFragment.close?_retouch (fragment : ImportFragment) :
    (fragment.retouch retouch).close? =
      fragment.close?.map (ImportStatement.retouch retouch) := by
  cases fragment with
  | afterTarget clause last | afterRenaming clause last =>
      simp only [ImportFragment.retouch, close?, Option.map_some, ImportStatement.retouch,
        ImportClause.statement, List.map_append, List.map_singleton]
      rfl
  | _ => rfl

theorem Fragment.close?_retouch (fragment : Fragment) :
    (fragment.retouch retouch).close? = fragment.close?.map (Statement.retouch retouch) := by
  cases fragment with
  | importing fragment =>
      simp only [Fragment.retouch, close?, fragment.close?_retouch, Option.map_map]
      rfl
  | _ => rfl

/-! ## Open documentation has a line -/

theorem Documentation.lines_ofToken_ne_nil (token : Token) : (ofToken token).lines ≠ [] :=
  List.cons_ne_nil _ _

theorem Documentation.lines_add_ne_nil (documentation : Documentation) (token : Token) :
    (documentation.add token).lines ≠ [] :=
  List.append_ne_nil_of_right_ne_nil _ (List.cons_ne_nil _ _)

theorem Fragment.lines_ne_nil_of_begin? {fragment : Fragment} {token : Token}
    (begins : begin? token = some fragment) :
    ∀ documentation ∈ fragment.documentation?, documentation.lines ≠ [] := by
  rcases token with ⟨terminal, text, span⟩
  cases terminal <;> cases begins <;> intro documentation isOpen <;> cases isOpen
  exact Documentation.lines_ofToken_ne_nil _

theorem OpenRecord.documentation?_close (record : OpenRecord) (token : Token) :
    (record.close token).documentation? = none := by
  cases record <;> rfl

theorem RecordPlace.lines_ne_nil_of_extend {record : OpenRecord} {place : RecordPlace}
    {extended : Fragment} {token : Token} (step : place.extend record token = some extended) :
    ∀ documentation ∈ extended.documentation?, documentation.lines ≠ [] := by
  intro documentation isOpen
  unfold extend at step
  split at step <;> cases step
  case h_3 =>
    rw [OpenRecord.documentation?_close] at isOpen
    cases isOpen
  all_goals cases isOpen
  · exact Documentation.lines_ofToken_ne_nil _
  · exact Documentation.lines_add_ne_nil _ _

theorem InterfacePlace.lines_ne_nil_of_extendBody {declared : NamedHeading}
    {operations : List Operation} {extended : Fragment} {token : Token}
    (step : extendBody declared operations token = some extended) :
    ∀ documentation ∈ extended.documentation?, documentation.lines ≠ [] := by
  intro documentation isOpen
  unfold extendBody at step
  split at step <;> cases step <;> cases isOpen
  exact Documentation.lines_ofToken_ne_nil _

theorem InterfacePlace.lines_ne_nil_of_extend {declared : NamedHeading}
    {operations : List Operation} {place : InterfacePlace} {extended : Fragment} {token : Token}
    (step : place.extend declared operations token = some extended) :
    ∀ documentation ∈ extended.documentation?, documentation.lines ≠ [] := by
  unfold extend at step
  split at step
  case h_1 => exact lines_ne_nil_of_extendBody step
  case h_9 => exact lines_ne_nil_of_extendBody step
  all_goals
    intro documentation isOpen
    cases step
  all_goals cases isOpen
  exact Documentation.lines_add_ne_nil _ _

theorem Fragment.lines_ne_nil_of_extend {fragment extended : Fragment} {token : Token}
    (step : fragment.extend token = some extended) :
    ∀ documentation ∈ extended.documentation?, documentation.lines ≠ [] := by
  cases fragment with
  | inRecord record place => exact place.lines_ne_nil_of_extend step
  | inInterface declared operations place => exact place.lines_ne_nil_of_extend step
  | importing fragment =>
      rcases Option.map_eq_some_iff.mp step with ⟨next, _, rfl⟩
      intro documentation isOpen
      cases isOpen
  | inService declared embeds implements place =>
      rcases token with ⟨terminal, text, span⟩
      cases place <;> cases terminal <;> cases step <;> intro other isOpen <;> cases isOpen
  | afterDocumentation documentation =>
      rcases token with ⟨terminal, text, span⟩
      cases terminal <;> cases step <;> intro other isOpen <;> cases isOpen
      exact Documentation.lines_add_ne_nil _ _
  | afterName kind declared =>
      rcases token with ⟨terminal, text, span⟩
      cases kind <;> cases terminal <;> cases step <;> intro other isOpen <;> cases isOpen
  | _ =>
      rcases token with ⟨terminal, text, span⟩
      cases terminal <;> cases step <;> intro other isOpen <;> cases isOpen

theorem Draft.lines_ne_nil_of_step {draft next : Draft} {token : Token}
    (step : draft.step token = some next) :
    ∀ documentation ∈ next.documentation?, documentation.lines ≠ [] := by
  rcases step_cases step with ⟨_, _, _, extended, rfl⟩ | ⟨_, _, begins, rfl⟩ |
    ⟨_, _, _, _, _, _, begins, rfl⟩
  · exact Fragment.lines_ne_nil_of_extend extended
  · exact Fragment.lines_ne_nil_of_begin? begins
  · exact Fragment.lines_ne_nil_of_begin? begins

namespace Draft

theorem step_retouch (draft : Draft) {token : Token}
    (quiet : retouch.line? token.span.start = none)
    (written : ∀ documentation ∈ draft.documentation?,
      retouch.line? documentation.start = none ∨ documentation.lines ≠ []) :
    (draft.retouch retouch).step (token.retouch retouch) =
      (draft.step token).map (Draft.retouch retouch) := by
  rcases draft with ⟨finished, current⟩
  cases current with
  | none =>
      simp only [Draft.retouch, step, Option.map_none, Fragment.begin?_retouch quiet,
        Option.map_map]
      rfl
  | some fragment =>
      have extended := fragment.extend_retouch quiet written
      simp only [Draft.retouch, step, Option.map_some, extended, fragment.close?_retouch]
      cases fragment.extend token with
      | some longer => rfl
      | none =>
          cases fragment.close? with
          | none => rfl
          | some statement =>
              simp only [Option.map_none, Option.map_some, Fragment.begin?_retouch quiet,
                Option.map_map, ← List.map_singleton, ← List.map_append]
              rfl

theorem finish?_retouch (draft : Draft) :
    (draft.retouch retouch).finish? = draft.finish?.map (Program.retouch retouch) := by
  rcases draft with ⟨finished, current⟩
  cases current with
  | none => rfl
  | some fragment =>
      simp only [Draft.retouch, finish?, Option.map_some, fragment.close?_retouch, Option.map_map]
      cases fragment.close? with
      | none => rfl
      | some statement => simp [Program.retouch]

end Draft

end ServiceModules
