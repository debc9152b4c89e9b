import ServiceModules.Program.Parse
import ServiceModules.Proofs.Program.Wordless

/-!
The words of documentation have no influence on what is read. Drafts that are the same without them
look for the same terminals and take the same tokens, and come to drafts that are the same without
them. Of a documentation comment only the place where it begins matters.
-/

namespace ServiceModules

def Documentation.wordless (documentation : Documentation) : Documentation :=
  { documentation with lines := [] }

def Heading.wordless (heading : Heading) : Heading :=
  { heading with documentation := ServiceModules.wordless heading.documentation }

def NamedHeading.wordless (heading : NamedHeading) : NamedHeading :=
  { heading.toHeading.wordless with name := heading.name }

def OpenRecord.wordless : OpenRecord → OpenRecord
  | .ofDeclaration declared start fields =>
    .ofDeclaration declared.wordless start (fields.map Field.wordless)
  | .ofField outer field start fields =>
    .ofField outer.wordless field.wordless start (fields.map Field.wordless)

def RecordPlace.wordless : RecordPlace → RecordPlace
  | .beforeField => .beforeField
  | .afterDocumentation documentation => .afterDocumentation documentation.wordless
  | .afterName field => .afterName field.wordless
  | .afterColon field => .afterColon field.wordless

def InterfacePlace.wordless : InterfacePlace → InterfacePlace
  | .beforeOperation => .beforeOperation
  | .afterDocumentation documentation => .afterDocumentation documentation.wordless
  | .afterName operation => .afterName operation.wordless
  | .inRequest operation => .inRequest operation.wordless
  | .afterRequestType operation request => .afterRequestType operation.wordless request
  | .afterRequest operation request stop => .afterRequest operation.wordless request stop
  | .afterArrow operation request => .afterArrow operation.wordless request

def Fragment.wordless : Fragment → Fragment
  | .importing fragment => .importing fragment
  | .afterDocumentation documentation => .afterDocumentation documentation.wordless
  | .afterWord kind heading => .afterWord kind heading.wordless
  | .afterName kind declared => .afterName kind declared.wordless
  | .afterColon declared => .afterColon declared.wordless
  | .synonym declared reference => .synonym declared.wordless reference
  | .inRecord record place => .inRecord record.wordless place.wordless
  | .inInterface declared operations place =>
    .inInterface declared.wordless (operations.map Operation.wordless) place.wordless
  | .inService declared embeds implements place =>
    .inService declared.wordless embeds implements place
  | .ended declaration => .ended declaration.wordless

def Draft.wordless (draft : Draft) : Draft :=
  ⟨draft.finished.map Statement.wordless, draft.current.map Fragment.wordless⟩

def Token.wordless (token : Token) : Token :=
  if token.terminal = .docComment then
    ⟨.docComment, [], ⟨token.span.start, token.span.start⟩⟩
  else token

/-! ## Losing the words twice -/

@[simp] theorem Documentation.wordless_wordless (documentation : Documentation) :
    documentation.wordless.wordless = documentation.wordless := rfl

@[simp] theorem Heading.wordless_wordless (heading : Heading) :
    heading.wordless.wordless = heading.wordless := by
  simp [wordless]

@[simp] theorem NamedHeading.wordless_wordless (heading : NamedHeading) :
    heading.wordless.wordless = heading.wordless := by
  simp [wordless]

@[simp] theorem OpenRecord.wordless_wordless (record : OpenRecord) :
    record.wordless.wordless = record.wordless := by
  induction record with
  | ofDeclaration declared start fields => simp [wordless, Function.comp_def]
  | ofField outer field start fields induction => simp [wordless, Function.comp_def, induction]

/-! ## What is looked for -/

theorem RecordPlace.sought_wordless (place : RecordPlace) :
    place.wordless.sought = place.sought := by
  cases place <;> rfl

theorem InterfacePlace.sought_wordless (place : InterfacePlace) :
    place.wordless.sought = place.sought := by
  cases place <;> rfl

theorem Fragment.sought_wordless (fragment : Fragment) :
    fragment.wordless.sought = fragment.sought := by
  cases fragment with
  | inRecord record place => exact place.sought_wordless
  | inInterface declared operations place => exact place.sought_wordless
  | afterName kind declared => cases kind <;> rfl
  | _ => rfl

theorem Draft.sought_wordless (draft : Draft) : draft.wordless.sought = draft.sought := by
  rcases draft with ⟨finished, current⟩
  cases current with
  | none => rfl
  | some fragment => exact fragment.sought_wordless

theorem Fragment.isDocumented_wordless (fragment : Fragment) :
    fragment.wordless.isDocumented = fragment.isDocumented := by
  cases fragment with
  | inRecord record place => cases place <;> rfl
  | inInterface declared operations place => cases place <;> rfl
  | _ => rfl

theorem Draft.isDocumented_wordless (draft : Draft) :
    draft.wordless.isDocumented = draft.isDocumented := by
  rcases draft with ⟨finished, current⟩
  cases current with
  | none => rfl
  | some fragment => exact fragment.isDocumented_wordless

/-! ## Adding a token -/

theorem OpenRecord.wordless_addTyped (record : OpenRecord) (field : NamedHeading)
    (type : TypeExpression) :
    (record.wordless.addTyped field.wordless type.wordless).wordless =
      (record.addTyped field type).wordless := by
  have span : type.wordless.span = type.span := by cases type <;> rfl
  cases record <;>
    simp [addTyped, add, wordless, NamedHeading.wordless, Heading.wordless, Field.wordless, span]

theorem OpenRecord.wordless_close (record : OpenRecord) (token : Token) :
    (record.wordless.close token).wordless = (record.close token).wordless := by
  cases record with
  | ofDeclaration declared start fields =>
      simp [close, Fragment.wordless, wordless, NamedHeading.declare, Declaration.wordless,
        NamedHeading.wordless, Heading.wordless, DeclarationBody.wordless,
        TypeExpression.wordless_record]
  | ofField outer field start fields =>
      have typed := outer.wordless_addTyped field (.record fields ⟨start, token.span.stop⟩)
      rw [TypeExpression.wordless_record] at typed
      simp only [close, Fragment.wordless, wordless, typed]

@[simp] theorem Documentation.wordless_ofToken (token : Token) :
    (Documentation.ofToken token).wordless = ⟨[], token.span.start⟩ := rfl

@[simp] theorem Documentation.wordless_add (documentation : Documentation) (token : Token) :
    (documentation.add token).wordless = documentation.wordless := rfl

@[simp] theorem Documentation.wordless_documented (documentation : Documentation) :
    (Heading.documented documentation.wordless).wordless =
      (Heading.documented documentation).wordless := rfl

@[simp] theorem Heading.wordless_named (heading : Heading) (token : Token) :
    (heading.named token).wordless = heading.wordless.named token := rfl

theorem RecordPlace.extend_wordless (record : OpenRecord) (place : RecordPlace) (token : Token) :
    (place.wordless.extend record.wordless token.wordless).map Fragment.wordless =
      (place.extend record token).map Fragment.wordless := by
  rcases token with ⟨terminal, text, span⟩
  cases place with
  | beforeField =>
      cases terminal with
      | rightBrace => exact congrArg some (record.wordless_close _)
      | docComment | name =>
          simp [RecordPlace.wordless, extend, Token.wordless, Fragment.wordless]
      | _ => rfl
  | afterDocumentation documentation =>
      cases terminal with
      | docComment | name =>
          simp [RecordPlace.wordless, extend, Token.wordless, Fragment.wordless]
      | _ => rfl
  | afterName field =>
      cases terminal with
      | colon => simp [RecordPlace.wordless, extend, Token.wordless, Fragment.wordless]
      | _ => rfl
  | afterColon field =>
      cases terminal with
      | name =>
          have typed := record.wordless_addTyped field (.named (.ofToken ⟨.name, text, span⟩))
          rw [TypeExpression.wordless] at typed
          simp [RecordPlace.wordless, extend, Token.wordless, Fragment.wordless, typed]
      | leftBrace =>
          simp [RecordPlace.wordless, extend, Token.wordless, Fragment.wordless,
            OpenRecord.wordless]
      | _ => rfl

@[simp] theorem NamedHeading.wordless_operation (heading : NamedHeading)
    (request response : Option TypeReference) (stop : Position) :
    (heading.operation request response stop).wordless =
      heading.wordless.operation request response stop := rfl

@[simp] theorem NamedHeading.wordless_declare (heading : NamedHeading) (body : DeclarationBody)
    (stop : Position) :
    (heading.declare body stop).wordless = heading.wordless.declare body.wordless stop := rfl

theorem InterfacePlace.extendBody_wordless (declared : NamedHeading) (operations : List Operation)
    (token : Token) :
    (extendBody declared.wordless (operations.map Operation.wordless) token.wordless).map
        Fragment.wordless =
      (extendBody declared operations token).map Fragment.wordless := by
  rcases token with ⟨terminal, text, span⟩
  cases terminal with
  | docComment | name =>
      simp [extendBody, Token.wordless, Fragment.wordless, InterfacePlace.wordless,
        Function.comp_def]
  | rightBrace =>
      simp [extendBody, Token.wordless, Fragment.wordless, DeclarationBody.wordless,
        Function.comp_def]
  | _ => rfl

theorem InterfacePlace.extend_wordless (declared : NamedHeading) (operations : List Operation)
    (place : InterfacePlace) (token : Token) :
    (place.wordless.extend declared.wordless (operations.map Operation.wordless)
        token.wordless).map Fragment.wordless =
      (place.extend declared operations token).map Fragment.wordless := by
  cases place with
  | beforeOperation => exact extendBody_wordless declared operations token
  | afterRequest operation request stop =>
      have body := extendBody_wordless declared
        (operations ++ [operation.operation request none stop]) token
      rw [List.map_append] at body
      rcases token with ⟨terminal, text, span⟩
      cases terminal with
      | arrow =>
          simp [InterfacePlace.wordless, extend, Token.wordless, Fragment.wordless,
            Function.comp_def]
      | _ => exact body
  | afterArrow operation request =>
      rcases token with ⟨terminal, text, span⟩
      cases terminal with
      | name =>
          simp [InterfacePlace.wordless, extend, Token.wordless, Fragment.wordless,
            Function.comp_def]
      | _ => rfl
  | _ =>
      rcases token with ⟨terminal, text, span⟩
      cases terminal <;> first
        | rfl
        | simp [InterfacePlace.wordless, extend, Token.wordless, Fragment.wordless,
            Function.comp_def]

theorem ServicePlace.extendBody_wordless (declared : NamedHeading)
    (embeds implements : List TypeReference) (token : Token) :
    (extendBody declared.wordless embeds implements token.wordless).map Fragment.wordless =
      (extendBody declared embeds implements token).map Fragment.wordless := by
  rcases token with ⟨terminal, text, span⟩
  cases terminal with
  | embedsWord | implementsWord => simp [extendBody, Token.wordless, Fragment.wordless]
  | rightBrace =>
      simp [extendBody, Token.wordless, Fragment.wordless, DeclarationBody.wordless]
  | _ => rfl

theorem ServicePlace.extend_wordless (declared : NamedHeading)
    (embeds implements : List TypeReference) (place : ServicePlace) (token : Token) :
    (place.extend declared.wordless embeds implements token.wordless).map Fragment.wordless =
      (place.extend declared embeds implements token).map Fragment.wordless := by
  have body := extendBody_wordless declared embeds implements token
  cases place with
  | beforeItem => exact body
  | afterEmbedded => exact body
  | afterImplemented =>
      rcases token with ⟨terminal, text, span⟩
      cases terminal with
      | comma => simp [extend, Token.wordless, Fragment.wordless]
      | _ => exact body
  | afterEmbeds | beforeImplemented =>
      rcases token with ⟨terminal, text, span⟩
      cases terminal with
      | name => simp [extend, Token.wordless, Fragment.wordless]
      | _ => rfl

theorem Fragment.begin?_wordless (token : Token) :
    (begin? token.wordless).map Fragment.wordless = (begin? token).map Fragment.wordless := by
  rcases token with ⟨terminal, text, span⟩
  cases terminal <;> rfl

theorem ImportFragment.extend_wordless (fragment : ImportFragment) (token : Token) :
    fragment.extend token.wordless = fragment.extend token := by
  rcases token with ⟨terminal, text, span⟩
  cases terminal with
  | docComment => cases fragment <;> rfl
  | _ => rfl

theorem Fragment.extend_wordless (fragment : Fragment) (token : Token) :
    (fragment.wordless.extend token.wordless).map Fragment.wordless =
      (fragment.extend token).map Fragment.wordless := by
  cases fragment with
  | importing fragment =>
      simp only [Fragment.wordless, extend, fragment.extend_wordless]
  | inRecord record place => exact place.extend_wordless record token
  | inInterface declared operations place =>
      exact place.extend_wordless declared operations token
  | inService declared embeds implements place =>
      exact place.extend_wordless declared embeds implements token
  | afterName kind declared =>
      rcases token with ⟨terminal, text, span⟩
      cases kind <;> cases terminal <;> first
        | rfl
        | simp [Fragment.wordless, extend, Token.wordless]
  | _ =>
      rcases token with ⟨terminal, text, span⟩
      cases terminal <;> first
        | rfl
        | simp [Fragment.wordless, extend, Token.wordless, OpenRecord.wordless]

/-! ## The end of a statement -/

theorem Fragment.close?_wordless (fragment : Fragment) :
    fragment.wordless.close?.map Statement.wordless = fragment.close?.map Statement.wordless := by
  cases fragment with
  | importing fragment => rfl
  | synonym declared reference => simp [Fragment.wordless, close?, Statement.wordless]
  | ended declaration => simp [Fragment.wordless, close?, Statement.wordless]
  | _ => rfl

namespace Draft

theorem step_wordless (draft : Draft) (token : Token) :
    (draft.wordless.step token.wordless).map Draft.wordless =
      (draft.step token).map Draft.wordless := by
  have begun : ∀ statements : List Statement,
      (Fragment.begin? token.wordless).map (fun fragment =>
          Draft.mk statements (some fragment.wordless)) =
        (Fragment.begin? token).map fun fragment =>
          Draft.mk statements (some fragment.wordless) := by
    intro statements
    simpa [Function.comp_def] using congrArg
      (Option.map fun fragment => Draft.mk statements (some fragment))
      (Fragment.begin?_wordless token)
  rcases draft with ⟨finished, current⟩
  cases current with
  | none => simpa [step, Draft.wordless, Function.comp_def] using begun _
  | some fragment =>
      have extended := fragment.extend_wordless token
      simp only [step, Draft.wordless, Option.map_some]
      cases here : fragment.extend token with
      | some longer =>
          rw [here] at extended
          rcases Option.map_eq_some_iff.mp extended with ⟨other, otherExtended, same⟩
          simp [otherExtended, same, Draft.wordless, Function.comp_def]
      | none =>
          rw [here, Option.map_none, Option.map_eq_none_iff] at extended
          have closed := fragment.close?_wordless
          rw [extended]
          dsimp only
          cases closes : fragment.close? with
          | none =>
              rw [closes, Option.map_none, Option.map_eq_none_iff] at closed
              rw [closed]
          | some statement =>
              rw [closes] at closed
              rcases Option.map_eq_some_iff.mp closed with ⟨other, otherCloses, same⟩
              simpa [otherCloses, same, Draft.wordless, Function.comp_def] using begun _

theorem finish?_wordless (draft : Draft) :
    draft.wordless.finish?.map Program.wordless = draft.finish?.map Program.wordless := by
  rcases draft with ⟨finished, current⟩
  cases current with
  | none => simp [finish?, Draft.wordless, Program.wordless, Function.comp_def]
  | some fragment =>
      have closed := congrArg (Option.map fun statement =>
        Program.mk (finished.map Statement.wordless ++ [statement])) fragment.close?_wordless
      simpa [finish?, Draft.wordless, Program.wordless, Function.comp_def] using closed

/-! ## Drafts that are the same without words -/

section

variable {draft other : Draft} (same : draft.wordless = other.wordless)
include same

theorem sought_eq_of_wordless : draft.sought = other.sought := by
  rw [← draft.sought_wordless, same, other.sought_wordless]

theorem step_of_wordless {token otherToken : Token}
    (sameToken : token.wordless = otherToken.wordless) :
    (draft.step token).map Draft.wordless = (other.step otherToken).map Draft.wordless := by
  rw [← step_wordless, same, sameToken, step_wordless]

theorem finish?_of_wordless :
    draft.finish?.map Program.wordless = other.finish?.map Program.wordless := by
  rw [← finish?_wordless, same, finish?_wordless]

theorem expected_of_wordless : draft.expected = other.expected := by
  have atEnd := congrArg Option.isSome (finish?_of_wordless same)
  have accepts : draft.accepts = other.accepts := by
    funext terminal
    have stepped := congrArg Option.isSome
      (step_of_wordless same (rfl : Token.wordless ⟨terminal, [], default⟩ = _))
    simpa [Draft.accepts] using stepped
  rw [Option.isSome_map, Option.isSome_map] at atEnd
  rw [expected, expected, atEnd, accepts]

theorem expectedInstead_of_wordless : draft.expectedInstead = other.expectedInstead := by
  rw [expectedInstead, expectedInstead, expected_of_wordless same, ← draft.isDocumented_wordless,
    same, other.isDocumented_wordless]

end

end Draft

end ServiceModules
