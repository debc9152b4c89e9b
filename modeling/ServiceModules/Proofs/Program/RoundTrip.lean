import ServiceModules.Proofs.Draft.Runs
import ServiceModules.Proofs.Draft.Undocumented

/-!
Reading what was printed. The tokens of each part of a program lead from a draft in front of this
part to the draft behind it, and so the text of a well-formed program is read as this program.
-/

namespace ServiceModules

open Token

variable {finished : List Statement}

theorem Token.string_ofName (name : String) : (ofName name).string = name := String.ofList_toList

namespace Draft.Runs

variable {draft next last : Draft} {rest : List Token}

theorem word (terminal : Terminal) (sought : List Terminal) (same : draft.sought = sought)
    (member : terminal ∈ sought) (noPath : .importPath ∉ sought)
    (spelled : terminal.spelling?.isSome = true)
    (stepped : draft.step (ofWord terminal) = some next) (runs : Runs next rest last) :
    Runs draft (ofWord terminal :: rest) last := by
  rcases Option.isSome_iff_exists.mp spelled with ⟨spelling, spelling?⟩
  refine .token ?_ stepped runs
  rw [same]
  exact isClear_ofWord spelling? member noPath

theorem name {name : String} (identifier : Lexeme.isIdentifier name = true)
    (sought : List Terminal) (same : draft.sought = sought) (member : .name ∈ sought)
    (marks : sought.all (fun terminal => !terminal.isWord) = true)
    (stepped : draft.step (ofName name) = some next) (runs : Runs next rest last) :
    Runs draft (ofName name :: rest) last := by
  refine .token ?_ stepped runs
  rw [same]
  exact isClear_ofName_of_marks member identifier marks

end Draft.Runs

/-! ## Documentation -/

/-- Where documentation stands: more of it may follow, and then its owner. -/
structure Documentation.IsPlace (place : Documentation → Fragment) : Prop where
  sought : ∀ documentation, (place documentation).sought = followers
  more : ∀ documentation token, token.terminal = .docComment →
    (place documentation).extend token = some (place (documentation.add token))

theorem Documentation.isPlace_declaration : IsPlace .afterDocumentation where
  sought := fun _ => rfl
  more := by
    rintro documentation ⟨terminal, text, span⟩ rfl
    rfl

theorem Documentation.isPlace_field (record : OpenRecord) :
    IsPlace fun documentation => .inRecord record (.afterDocumentation documentation) where
  sought := fun _ => rfl
  more := by
    rintro documentation ⟨terminal, text, span⟩ rfl
    rfl

theorem Documentation.isPlace_operation (declared : NamedHeading) (operations : List Operation) :
    IsPlace fun documentation =>
      .inInterface declared operations (.afterDocumentation documentation) where
  sought := fun _ => rfl
  more := by
    rintro documentation ⟨terminal, text, span⟩ rfl
    rfl

namespace Draft.Runs

variable {draft : Draft} {place : Documentation → Fragment}

theorem lines (isPlace : Documentation.IsPlace place) {lines : List (List Char)}
    (single : ∀ line ∈ lines, '\n' ∉ line) (documentation : Documentation) :
    Runs ⟨finished, some (place documentation)⟩ (lines.map ofLine)
      ⟨finished, some (place ⟨documentation.lines ++ lines, documentation.start⟩)⟩ := by
  induction lines generalizing documentation with
  | nil =>
      rw [List.append_nil]
      exact .done
  | cons line lines induction =>
      have isSought : Terminal.docComment ∈ (place documentation).sought := by
        rw [isPlace.sought]
        decide
      have behind := induction (fun other member => single other (List.mem_cons_of_mem _ member))
        (documentation.add (ofLine line))
      have added : (documentation.add (ofLine line)).lines = documentation.lines ++ [line] := rfl
      rw [added, List.append_assoc, List.singleton_append] at behind
      refine .token (isClear_ofLine isSought (single line (List.mem_cons_self ..))) ?_ behind
      rw [Draft.step]
      simp only [isPlace.more documentation (ofLine line) rfl]

theorem documentation (isPlace : Documentation.IsPlace place)
    (isSought : .docComment ∈ draft.sought)
    (first : ∀ token, token.terminal = .docComment →
      draft.step token = some ⟨finished, some (place (.ofToken token))⟩) (text : String) :
    Runs draft (ofDocumentation text)
      ⟨finished, some (place ⟨Text.split '\n' text.toList, default⟩)⟩ := by
  have single : ∀ line ∈ Text.split '\n' text.toList, '\n' ∉ line := Text.not_mem_of_mem_split
  rw [ofDocumentation]
  cases cut : Text.split '\n' text.toList with
  | nil => exact absurd cut (Text.split_ne_nil _)
  | cons line lines =>
      rw [cut] at single
      refine .token (isClear_ofLine isSought (single line (List.mem_cons_self ..)))
        (first _ rfl) ?_
      exact Runs.lines isPlace (fun other member => single other (List.mem_cons_of_mem _ member)) _

theorem heading (isPlace : Documentation.IsPlace place) (owner : Heading → Fragment)
    (isSought : .docComment ∈ draft.sought)
    (first : ∀ token, token.terminal = .docComment →
      draft.step token = some ⟨finished, some (place (.ofToken token))⟩)
    {token : Token} {documentation : Option String}
    (plainClear : token.IsClear draft.sought)
    (plain : draft.step token = some ⟨finished, some (owner ⟨none, default⟩)⟩)
    (clear : documentation.isSome = true → token.IsClear Documentation.followers)
    (documented : ∀ documentation, (place documentation).extend token =
      some (owner (.documented documentation))) :
    Runs draft ((documentation.map ofDocumentation).getD [] ++ [token])
      ⟨finished, some (owner ⟨documentation, default⟩)⟩ := by
  cases documentation with
  | none => exact .one plainClear plain
  | some text =>
      refine (Runs.documentation isPlace isSought first text).append (.one ?_ ?_)
      · have sought : (Draft.sought ⟨finished,
            some (place ⟨Text.split '\n' text.toList, default⟩)⟩) = Documentation.followers :=
          isPlace.sought _
        rw [sought]
        exact clear rfl
      · rw [Draft.step]
        simp only [documented]
        have same : Heading.documented ⟨Text.split '\n' text.toList, default⟩ =
            ⟨some text, default⟩ := by
          rw [Heading.documented_kept, Documentation.text, Text.intercalate_split,
            String.ofList_toList]
        rw [same]

end Draft.Runs

namespace DeclarationKind

theorem not_mem_words_of_admits {name : String} {documentation : Option String}
    (admitted : admits name documentation = true) (documented : documentation.isSome = true) :
    name ∉ words := by
  rw [admits, Bool.or_eq_true] at admitted
  rcases admitted with nothing | other
  · rw [Option.isNone_iff_eq_none] at nothing
    rw [nothing] at documented
    cases documented
  · simpa using other

end DeclarationKind

/-! ## Fields -/

namespace OpenRecord

def addAll (record : OpenRecord) (fields : List Field) : OpenRecord := fields.foldl add record

theorem addAll_ofDeclaration (declared : NamedHeading) (start : Position)
    (fields more : List Field) :
    (ofDeclaration declared start fields).addAll more =
      ofDeclaration declared start (fields ++ more) := by
  induction more generalizing fields with
  | nil => rw [List.append_nil]; rfl
  | cons field more induction =>
      have behind := induction (fields ++ [field])
      rw [List.append_assoc, List.singleton_append] at behind
      exact behind

theorem addAll_ofField (outer : OpenRecord) (owner : NamedHeading) (start : Position)
    (fields more : List Field) :
    (ofField outer owner start fields).addAll more =
      ofField outer owner start (fields ++ more) := by
  induction more generalizing fields with
  | nil => rw [List.append_nil]; rfl
  | cons field more induction =>
      have behind := induction (fields ++ [field])
      rw [List.append_assoc, List.singleton_append] at behind
      exact behind

end OpenRecord

theorem TypeReference.ofToken_token (reference : TypeReference) :
    TypeReference.ofToken reference.token = reference.retouch .erasing := by
  rw [TypeReference.ofToken, TypeReference.token, Token.string_ofName]
  rfl

theorem Draft.Runs.fieldName {name : String} {documentation : Option String}
    (identifier : Lexeme.isIdentifier name = true)
    (admitted : DeclarationKind.admits name documentation = true) (record : OpenRecord) :
    Runs ⟨finished, some (.inRecord record .beforeField)⟩
      ((documentation.map ofDocumentation).getD [] ++ [ofName name])
      ⟨finished, some (.inRecord record (.afterName ⟨⟨documentation, default⟩, name⟩))⟩ := by
  refine Runs.heading (Documentation.isPlace_field record)
    (fun heading => .inRecord record (.afterName ⟨heading, name⟩)) ?_ ?_ ?_ ?_ ?_ ?_
  · exact List.mem_cons_self ..
  · rintro ⟨terminal, text, span⟩ rfl
    rfl
  · exact isClear_ofName_of_marks (List.mem_cons_of_mem _ (List.mem_cons_self ..)) identifier rfl
  · show some _ = some _
    rw [Heading.named, Token.string_ofName]
    rfl
  · intro documented
    exact isClear_ofName_followers identifier
      (DeclarationKind.not_mem_words_of_admits admitted documented)
  · intro documentation
    show some _ = some _
    rw [Heading.named, Token.string_ofName]

mutual
theorem TypeExpression.runs {expression : TypeExpression}
    (wellFormed : expression.isWellFormed = true) (record : OpenRecord) (field : NamedHeading) :
    Draft.Runs ⟨finished, some (.inRecord record (.afterColon field))⟩ expression.tokens
      ⟨finished, some (.inRecord (record.addTyped field (expression.retouch .erasing))
        .beforeField)⟩ := by
  cases expression with
  | named reference =>
      refine .name wellFormed [.leftBrace, .name] rfl (by decide) rfl ?_ .done
      rw [TypeExpression.retouch, ← reference.ofToken_token]
      rfl
  | record fields span =>
      refine .word .leftBrace [.leftBrace, .name] rfl (by decide) (by decide) rfl rfl ?_
      have inside := Field.listRuns wellFormed (.ofField record field default [])
      rw [OpenRecord.addAll_ofField, List.nil_append] at inside
      exact inside.append (.word .rightBrace [.docComment, .name, .rightBrace] rfl (by decide)
        (by decide) rfl rfl .done)

theorem Field.runs {field : Field} (wellFormed : field.isWellFormed = true) (record : OpenRecord) :
    Draft.Runs ⟨finished, some (.inRecord record .beforeField)⟩ field.tokens
      ⟨finished, some (.inRecord (record.add (field.retouch .erasing)) .beforeField)⟩ := by
  cases field with
  | mk name documentation type span =>
      rw [Field.isWellFormed, Bool.and_eq_true, Bool.and_eq_true] at wellFormed
      rcases wellFormed with ⟨⟨identifier, admitted⟩, typeWellFormed⟩
      rw [Field.tokens, List.append_cons]
      refine (Draft.Runs.fieldName identifier admitted record).append ?_
      refine .word .colon [.colon] rfl (by decide) (by decide) rfl rfl ?_
      have typed := TypeExpression.runs typeWellFormed record ⟨⟨documentation, default⟩, name⟩
      rw [OpenRecord.addTyped, TypeExpression.span_retouch] at typed
      rw [Field.retouch]
      exact typed

theorem Field.listRuns {fields : List Field} (wellFormed : Field.listIsWellFormed fields = true)
    (record : OpenRecord) :
    Draft.Runs ⟨finished, some (.inRecord record .beforeField)⟩ (Field.listTokens fields)
      ⟨finished, some (.inRecord (record.addAll (Field.listRetouch .erasing fields))
        .beforeField)⟩ := by
  cases fields with
  | nil => exact .done
  | cons field rest =>
      rw [Field.listIsWellFormed, Bool.and_eq_true] at wellFormed
      rw [Field.listTokens, Field.listRetouch]
      exact (Field.runs wellFormed.1 record).append (Field.listRuns wellFormed.2 _)
end

/-! ## Operations -/

structure Draft.IsInInterface (draft : Draft) (finished : List Statement)
    (declared : NamedHeading) (operations : List Operation) : Prop where
  goesOn : ∀ token extended,
    InterfacePlace.extendBody declared operations token = some extended →
    draft.step token = some ⟨finished, some extended⟩
  sought : ∀ terminal ∈ InterfacePlace.beforeOperation.sought, terminal ∈ draft.sought
  marks : draft.sought.all (fun terminal => !terminal.isWord) = true
  noPath : .importPath ∉ draft.sought

namespace Draft.IsInInterface

variable {draft : Draft} {declared : NamedHeading} {operations : List Operation}

theorem beforeOperation :
    IsInInterface ⟨finished, some (.inInterface declared operations .beforeOperation)⟩ finished
      declared operations where
  goesOn := by
    intro token extended body
    rw [Draft.step]
    simp only [Fragment.extend, InterfacePlace.extend, body]
  sought := fun _ member => member
  marks := rfl
  noPath := by
    show Terminal.importPath ∉ [Terminal.docComment, .name, .rightBrace]
    decide

theorem afterRequest (operation : NamedHeading) (request : Option TypeReference)
    (stop : Position) :
    IsInInterface
      ⟨finished, some (.inInterface declared operations (.afterRequest operation request stop))⟩
      finished declared (operations ++ [operation.operation request none stop]) where
  goesOn := by
    rintro ⟨terminal, text, span⟩ extended body
    cases terminal <;> cases body <;> rfl
  sought := by
    show ∀ terminal ∈ [Terminal.docComment, .name, .rightBrace],
      terminal ∈ [Terminal.docComment, .name, .rightBrace, .arrow]
    decide
  marks := rfl
  noPath := by
    show Terminal.importPath ∉ [Terminal.docComment, .name, .rightBrace, .arrow]
    decide

theorem runs_name (inside : draft.IsInInterface finished declared operations) {name : String}
    {documentation : Option String} (identifier : Lexeme.isIdentifier name = true)
    (admitted : DeclarationKind.admits name documentation = true) :
    Runs draft ((documentation.map ofDocumentation).getD [] ++ [ofName name])
      ⟨finished, some (.inInterface declared operations
        (.afterName ⟨⟨documentation, default⟩, name⟩))⟩ := by
  refine Runs.heading (Documentation.isPlace_operation declared operations)
    (fun heading => .inInterface declared operations (.afterName ⟨heading, name⟩)) ?_ ?_ ?_ ?_ ?_ ?_
  · exact inside.sought _ (List.mem_cons_self ..)
  · rintro ⟨terminal, text, span⟩ rfl
    exact inside.goesOn _ _ rfl
  · exact isClear_ofName_of_marks
      (inside.sought _ (List.mem_cons_of_mem _ (List.mem_cons_self ..))) identifier inside.marks
  · apply inside.goesOn
    show some _ = some _
    rw [Heading.named, Token.string_ofName]
    rfl
  · intro documented
    exact isClear_ofName_followers identifier
      (DeclarationKind.not_mem_words_of_admits admitted documented)
  · intro documentation
    show some _ = some _
    rw [Heading.named, Token.string_ofName]

theorem runs_request {request : Option TypeReference}
    (wellFormed : request.all TypeReference.isWellFormed = true) (operation : NamedHeading) :
    Runs ⟨finished, some (.inInterface declared operations (.afterName operation))⟩
      (ofWord .leftParenthesis ::
        (request.toList.map TypeReference.token ++ [ofWord .rightParenthesis]))
      ⟨finished, some (.inInterface declared operations
        (.afterRequest operation (request.map (TypeReference.retouch .erasing)) default))⟩ := by
  refine .word .leftParenthesis [.leftParenthesis] rfl (by decide) (by decide) rfl rfl ?_
  cases request with
  | none =>
      exact .word .rightParenthesis [.name, .rightParenthesis] rfl (by decide) (by decide) rfl rfl
        .done
  | some request =>
      rw [Option.map_some, ← request.ofToken_token]
      refine .name wellFormed [.name, .rightParenthesis] rfl (by decide) rfl rfl ?_
      exact .word .rightParenthesis TypeReference.followers rfl (by decide) (by decide) rfl rfl
        .done

theorem runs (inside : draft.IsInInterface finished declared operations) {operation : Operation}
    (wellFormed : operation.isWellFormed = true) :
    ∃ last, Runs draft operation.tokens last ∧
      last.IsInInterface finished declared (operations ++ [operation.retouch .erasing]) := by
  rcases operation with ⟨name, documentation, request, response, span⟩
  simp only [Operation.isWellFormed, Bool.and_eq_true] at wellFormed
  rcases wellFormed with ⟨⟨⟨identifier, admitted⟩, requestWellFormed⟩, responseWellFormed⟩
  have front := (inside.runs_name identifier admitted).append
    (runs_request requestWellFormed ⟨⟨documentation, default⟩, name⟩)
  have tokens : Operation.tokens ⟨name, documentation, request, response, span⟩ =
      (((documentation.map ofDocumentation).getD [] ++ [ofName name]) ++
        (ofWord .leftParenthesis ::
          (request.toList.map TypeReference.token ++ [ofWord .rightParenthesis]))) ++
        response.toList.flatMap fun response => [ofWord .arrow, response.token] := by
    simp [Operation.tokens]
  rw [tokens]
  cases response with
  | none => exact ⟨_, front.append .done, afterRequest _ _ _⟩
  | some response =>
      refine ⟨_, front.append ?_, beforeOperation⟩
      refine .word .arrow [.docComment, .name, .rightBrace, .arrow] rfl (by decide) (by decide) rfl
        rfl ?_
      refine .name responseWellFormed [.name] rfl (by decide) rfl ?_ .done
      rw [Operation.retouch, Option.map_some, ← response.ofToken_token]
      rfl

end Draft.IsInInterface

theorem Operation.listRuns {operations : List Operation}
    (wellFormed : operations.all Operation.isWellFormed = true) {draft : Draft}
    {declared : NamedHeading} {before : List Operation}
    (inside : draft.IsInInterface finished declared before) :
    ∃ last, draft.Runs (operations.flatMap Operation.tokens) last ∧
      last.IsInInterface finished declared
        (before ++ operations.map (Operation.retouch .erasing)) := by
  induction operations generalizing draft before with
  | nil =>
      rw [List.map_nil, List.append_nil]
      exact ⟨draft, .done, inside⟩
  | cons operation operations induction =>
      rw [List.all_cons, Bool.and_eq_true] at wellFormed
      rcases inside.runs wellFormed.1 with ⟨middle, runs, insideMiddle⟩
      rcases induction wellFormed.2 insideMiddle with ⟨last, runsOn, insideLast⟩
      rw [List.append_assoc, List.singleton_append] at insideLast
      exact ⟨last, runs.append runsOn, insideLast⟩

/-! ## Services -/

structure Draft.IsInService (draft : Draft) (finished : List Statement) (declared : NamedHeading)
    (embeds implements : List TypeReference) : Prop where
  goesOn : ∀ token extended,
    ServicePlace.extendBody declared embeds implements token = some extended →
    draft.step token = some ⟨finished, some extended⟩
  sought : ∀ terminal ∈ ServicePlace.beforeItem.sought, terminal ∈ draft.sought
  noPath : .importPath ∉ draft.sought

namespace Draft.IsInService

variable {draft : Draft} {declared : NamedHeading} {embeds implements : List TypeReference}

theorem beforeItem :
    IsInService ⟨finished, some (.inService declared embeds implements .beforeItem)⟩ finished
      declared embeds implements where
  goesOn := by
    rintro ⟨terminal, text, span⟩ extended body
    cases terminal <;> cases body <;> rfl
  sought := fun _ member => member
  noPath := by
    show Terminal.importPath ∉ [Terminal.embedsWord, .implementsWord, .rightBrace]
    decide

theorem afterEmbedded :
    IsInService ⟨finished, some (.inService declared embeds implements .afterEmbedded)⟩ finished
      declared embeds implements where
  goesOn := by
    rintro ⟨terminal, text, span⟩ extended body
    cases terminal <;> cases body <;> rfl
  sought := by
    show ∀ terminal ∈ ServicePlace.beforeItem.sought, terminal ∈ TypeReference.followers
    decide
  noPath := by
    show Terminal.importPath ∉ TypeReference.followers
    decide

theorem afterImplemented :
    IsInService ⟨finished, some (.inService declared embeds implements .afterImplemented)⟩ finished
      declared embeds implements where
  goesOn := by
    rintro ⟨terminal, text, span⟩ extended body
    cases terminal <;> cases body <;> rfl
  sought := by
    show ∀ terminal ∈ ServicePlace.beforeItem.sought, terminal ∈ TypeReference.followers
    decide
  noPath := by
    show Terminal.importPath ∉ TypeReference.followers
    decide

theorem word (inside : draft.IsInService finished declared embeds implements)
    {terminal : Terminal} (member : terminal ∈ ServicePlace.beforeItem.sought)
    (spelled : terminal.spelling?.isSome = true) {extended : Fragment}
    (body : ServicePlace.extendBody declared embeds implements (ofWord terminal) = some extended)
    {rest : List Token} {last : Draft} (runs : Runs ⟨finished, some extended⟩ rest last) :
    Runs draft (ofWord terminal :: rest) last :=
  .word terminal draft.sought rfl (inside.sought terminal member) inside.noPath spelled
    (inside.goesOn _ _ body) runs

theorem runs_embeds {more : List TypeReference}
    (wellFormed : more.all TypeReference.isWellFormed = true)
    (inside : draft.IsInService finished declared embeds implements) :
    ∃ last, Runs draft (more.flatMap fun embedded => [ofWord .embedsWord, embedded.token]) last ∧
      last.IsInService finished declared (embeds ++ more.map (TypeReference.retouch .erasing))
        implements := by
  induction more generalizing draft embeds with
  | nil =>
      rw [List.map_nil, List.append_nil]
      exact ⟨draft, .done, inside⟩
  | cons embedded more induction =>
      rw [List.all_cons, Bool.and_eq_true] at wellFormed
      rcases induction wellFormed.2 (@afterEmbedded finished declared
        (embeds ++ [embedded.retouch .erasing]) implements) with ⟨last, runs, insideLast⟩
      rw [List.append_assoc, List.singleton_append] at insideLast
      refine ⟨last, inside.word (by decide) rfl rfl ?_, insideLast⟩
      refine .name wellFormed.1 [.name] rfl (by decide) rfl ?_ runs
      rw [← embedded.ofToken_token]
      rfl

theorem runs_more {more : List TypeReference}
    (wellFormed : more.all TypeReference.isWellFormed = true) :
    Runs ⟨finished, some (.inService declared embeds implements .afterImplemented)⟩
      (more.flatMap fun served => [ofWord .comma, served.token])
      ⟨finished, some (.inService declared embeds
        (implements ++ more.map (TypeReference.retouch .erasing)) .afterImplemented)⟩ := by
  induction more generalizing implements with
  | nil =>
      rw [List.map_nil, List.append_nil]
      exact .done
  | cons served more induction =>
      rw [List.all_cons, Bool.and_eq_true] at wellFormed
      have behind := @induction (implements ++ [served.retouch .erasing]) wellFormed.2
      rw [List.append_assoc, List.singleton_append] at behind
      refine .word .comma TypeReference.followers rfl (by decide) (by decide) rfl rfl ?_
      refine .name wellFormed.1 [.name] rfl (by decide) rfl ?_ behind
      rw [← served.ofToken_token]
      rfl

theorem runs_implements {more : List TypeReference}
    (wellFormed : more.all TypeReference.isWellFormed = true)
    (inside : draft.IsInService finished declared embeds []) :
    ∃ last, Runs draft (if more = [] then []
        else ofWord .implementsWord :: separated (more.map fun served => [served.token])) last ∧
      last.IsInService finished declared embeds (more.map (TypeReference.retouch .erasing)) := by
  cases more with
  | nil => exact ⟨draft, .done, inside⟩
  | cons served more =>
      rw [List.all_cons, Bool.and_eq_true] at wellFormed
      refine ⟨_, ?_, afterImplemented⟩
      rw [if_neg (List.cons_ne_nil _ _), List.map_cons, separated, List.flatMap_map]
      refine inside.word (by decide) rfl rfl ?_
      have behind := @runs_more finished declared embeds [served.retouch .erasing] more wellFormed.2
      refine .name wellFormed.1 [.name] rfl (by decide) rfl ?_ behind
      rw [← served.ofToken_token]
      rfl

end Draft.IsInService

/-! ## Statements -/

/-- A draft between two statements, behind these ones. -/
structure Draft.IsBetween (draft : Draft) (finished : List Statement) : Prop where
  begins : ∀ token begun, Fragment.begin? token = some begun →
    draft.step token = some ⟨finished, some begun⟩
  sought : ∀ terminal ∈ Fragment.beginnings, terminal ∈ draft.sought
  noPath : .importPath ∉ draft.sought
  finishes : draft.finish? = some ⟨finished⟩

namespace Draft.IsBetween

variable {draft : Draft}

theorem empty : IsBetween .empty [] where
  begins := by
    intro token begun begins
    rw [Draft.step]
    simp only [Draft.empty, begins]
    rfl
  sought := fun _ member => member
  noPath := by decide
  finishes := rfl

/-- A statement that may end has ended when the next token begins another one. -/
theorem of_close? {fragment : Fragment} {statement : Statement}
    (closes : fragment.close? = some statement)
    (ends : ∀ token begun, Fragment.begin? token = some begun → fragment.extend token = none)
    (sought : ∀ terminal ∈ Fragment.beginnings, terminal ∈ fragment.sought)
    (noPath : .importPath ∉ fragment.sought) :
    IsBetween ⟨finished, some fragment⟩ (finished ++ [statement]) where
  begins := by
    intro token begun begins
    rw [Draft.step]
    simp only [ends token begun begins, closes, begins]
    rfl
  sought := sought
  noPath := noPath
  finishes := by
    rw [Draft.finish?]
    simp only [closes]
    rfl

theorem ended (declaration : Declaration) :
    IsBetween ⟨finished, some (.ended declaration)⟩ (finished ++ [.declaring declaration]) :=
  of_close? rfl (fun _ _ _ => rfl) (fun _ member => member)
    (show Terminal.importPath ∉ Fragment.beginnings by decide)

theorem synonym (declared : NamedHeading) (reference : TypeReference) :
    IsBetween ⟨finished, some (.synonym declared reference)⟩
      (finished ++
        [.declaring (declared.declare (.type (.named reference)) reference.span.stop)]) :=
  of_close? rfl (fun _ _ _ => rfl)
    (show ∀ terminal ∈ Fragment.beginnings, terminal ∈ TypeReference.followers by decide)
    (show Terminal.importPath ∉ TypeReference.followers by decide)

theorem afterTarget (clause : ImportClause) (last : ImportTarget) :
    IsBetween ⟨finished, some (.importing (.afterTarget clause last))⟩
      (finished ++ [.importing (clause.statement last)]) := by
  refine of_close? rfl ?_ ?_ ?_
  · rintro ⟨terminal, text, span⟩ begun begins
    cases terminal <;> cases begins <;> rfl
  · show ∀ terminal ∈ Fragment.beginnings, terminal ∈
      [Terminal.asWord, .comma, .docComment, .fromWord, .interfaceWord, .serviceWord, .typeWord]
    decide
  · show Terminal.importPath ∉
      [Terminal.asWord, .comma, .docComment, .fromWord, .interfaceWord, .serviceWord, .typeWord]
    decide

theorem afterRenaming (clause : ImportClause) (last : ImportTarget) :
    IsBetween ⟨finished, some (.importing (.afterRenaming clause last))⟩
      (finished ++ [.importing (clause.statement last)]) := by
  refine of_close? rfl ?_ ?_ ?_
  · rintro ⟨terminal, text, span⟩ begun begins
    cases terminal <;> cases begins <;> rfl
  · show ∀ terminal ∈ Fragment.beginnings, terminal ∈
      [Terminal.comma, .docComment, .fromWord, .interfaceWord, .serviceWord, .typeWord]
    decide
  · show Terminal.importPath ∉
      [Terminal.comma, .docComment, .fromWord, .interfaceWord, .serviceWord, .typeWord]
    decide

end Draft.IsBetween

/-! Import statements. -/

inductive Draft.IsBehindTarget (finished : List Statement) (clause : ImportClause)
    (last : ImportTarget) : Draft → Prop
  | plain : IsBehindTarget finished clause last
      ⟨finished, some (.importing (.afterTarget clause last))⟩
  | renamed : IsBehindTarget finished clause last
      ⟨finished, some (.importing (.afterRenaming clause last))⟩

theorem ImportTarget.runs {target : ImportTarget} (wellFormed : target.isWellFormed = true)
    (clause : ImportClause) :
    ∃ last, Draft.Runs ⟨finished, some (.importing (.beforeTarget clause))⟩ target.tokens last ∧
      last.IsBehindTarget finished clause (target.retouch .erasing) := by
  rcases target with ⟨name, renamed, span⟩
  rw [ImportTarget.isWellFormed, Bool.and_eq_true] at wellFormed
  cases renamed with
  | none =>
      refine ⟨_, .name wellFormed.1 [.name] rfl (by decide) rfl ?_ .done, .plain⟩
      show some _ = some _
      rw [Token.string_ofName]
      rfl
  | some renamed =>
      refine ⟨_, ?_, .renamed⟩
      refine .name wellFormed.1 [.name] rfl (by decide) rfl rfl ?_
      refine .word .asWord
        [.asWord, .comma, .docComment, .fromWord, .interfaceWord, .serviceWord, .typeWord] rfl
        (by decide) (by decide) rfl rfl ?_
      refine .name wellFormed.2 [.name] rfl (by decide) rfl ?_ .done
      show some _ = some _
      rw [Token.string_ofName, Token.string_ofName]
      rfl

namespace Draft.IsBehindTarget

variable {draft : Draft} {clause : ImportClause} {last : ImportTarget}

theorem isBetween (behind : draft.IsBehindTarget finished clause last) :
    draft.IsBetween (finished ++ [.importing (clause.statement last)]) := by
  cases behind with
  | plain => exact .afterTarget clause last
  | renamed => exact .afterRenaming clause last

theorem comma (behind : draft.IsBehindTarget finished clause last) {rest : List Token}
    {later : Draft}
    (runs : Runs ⟨finished, some (.importing (.beforeTarget (clause.add last)))⟩ rest later) :
    Runs draft (ofWord .comma :: rest) later := by
  cases behind with
  | plain =>
      exact .word .comma
        [.asWord, .comma, .docComment, .fromWord, .interfaceWord, .serviceWord, .typeWord] rfl
        (by decide) (by decide) rfl rfl runs
  | renamed =>
      exact .word .comma
        [.comma, .docComment, .fromWord, .interfaceWord, .serviceWord, .typeWord] rfl
        (by decide) (by decide) rfl rfl runs

theorem runs_more {more : List ImportTarget}
    (wellFormed : more.all ImportTarget.isWellFormed = true)
    (behind : draft.IsBehindTarget finished clause last) (ends : last.span.stop = default) :
    ∃ later laterClause laterLast,
      Runs draft (more.flatMap fun target => ofWord .comma :: target.tokens) later ∧
      later.IsBehindTarget finished laterClause laterLast ∧
      laterClause.statement laterLast =
        { path := clause.path
          targets := clause.targets ++ last :: more.map (ImportTarget.retouch .erasing)
          pathSpan := clause.pathSpan
          span := ⟨clause.start, default⟩ } := by
  induction more generalizing draft clause last with
  | nil =>
      refine ⟨draft, clause, last, .done, behind, ?_⟩
      rw [ImportClause.statement, ends]
      rfl
  | cons target more induction =>
      rw [List.all_cons, Bool.and_eq_true] at wellFormed
      rcases target.runs wellFormed.1 (clause.add last) with ⟨middle, runs, behindMiddle⟩
      rcases induction wellFormed.2 behindMiddle rfl with
        ⟨later, laterClause, laterLast, runsOn, behindLater, statement⟩
      refine ⟨later, laterClause, laterLast, behind.comma (runs.append runsOn), behindLater, ?_⟩
      rw [statement, ImportClause.add, List.append_assoc]
      rfl

end Draft.IsBehindTarget

namespace Draft.IsBetween

variable {draft : Draft}

theorem runs_import (between : draft.IsBetween finished) {statement : ImportStatement}
    (wellFormed : statement.isWellFormed = true) :
    ∃ last, Runs draft statement.tokens last ∧
      last.IsBetween (finished ++ [.importing (statement.retouch .erasing)]) := by
  rcases statement with ⟨path, targets, pathSpan, span⟩
  simp only [ImportStatement.isWellFormed, Bool.and_eq_true] at wellFormed
  rcases wellFormed with ⟨⟨pathWellFormed, nonempty⟩, targetsWellFormed⟩
  cases targets with
  | nil => cases nonempty
  | cons target more =>
      rw [List.all_cons, Bool.and_eq_true] at targetsWellFormed
      rcases @ImportTarget.runs finished target targetsWellFormed.1
        ⟨default, path, default, []⟩ with ⟨middle, runs, behind⟩
      rcases behind.runs_more targetsWellFormed.2 rfl with
        ⟨last, clause, lastTarget, runsOn, behindLast, statement⟩
      have behindBetween := behindLast.isBetween
      rw [statement] at behindBetween
      refine ⟨last, ?_, behindBetween⟩
      rw [ImportStatement.tokens, List.map_cons, separated, List.flatMap_map]
      refine .word .fromWord draft.sought rfl (between.sought _ (by decide)) between.noPath rfl
        (between.begins _ _ rfl) ?_
      have written : ImportPath.ofText (ofPath path).string = path := by
        rw [Token.string, ofPath, String.ofList_toList,
          (ImportPath.isLegible_of_isWellFormed pathWellFormed).ofText_text]
      have stepped : Draft.step ⟨finished, some (.importing (.afterFrom default))⟩ (ofPath path) =
          some ⟨finished, some (.importing (.afterPath default path default))⟩ := by
        show some _ = some _
        rw [written]
        rfl
      refine .token (isClear_ofPath pathWellFormed) stepped ?_
      exact .word .importWord [.importWord] rfl (by decide) (by decide) rfl rfl
        (runs.append runsOn)

theorem runs_word (between : draft.IsBetween finished) (kind : DeclarationKind)
    (documentation : Option String) :
    Runs draft ((documentation.map ofDocumentation).getD [] ++ [ofWord kind.terminal])
      ⟨finished, some (.afterWord kind ⟨documentation, default⟩)⟩ := by
  have isBeginning : kind.terminal ∈ Fragment.beginnings := by cases kind <;> decide
  refine Runs.heading Documentation.isPlace_declaration (fun heading => .afterWord kind heading)
    ?_ ?_ ?_ ?_ ?_ ?_
  · exact between.sought _ (by decide)
  · rintro ⟨terminal, text, span⟩ rfl
    exact between.begins _ _ rfl
  · exact isClear_ofWord kind.spelling?_terminal (between.sought _ isBeginning) between.noPath
  · apply between.begins
    cases kind <;> rfl
  · exact fun _ => isClear_ofWord kind.spelling?_terminal kind.terminal_mem_followers
      (by decide)
  · intro documentation
    cases kind <;> rfl

end Draft.IsBetween

/-! Declarations, from their names on. -/

theorem TypeExpression.runs_declared {expression : TypeExpression}
    (wellFormed : expression.isWellFormed = true) (declared : NamedHeading) :
    ∃ last, Draft.Runs ⟨finished, some (.afterColon declared)⟩ expression.tokens last ∧
      last.IsBetween (finished ++
        [.declaring (declared.declare (.type (expression.retouch .erasing)) default)]) := by
  cases expression with
  | named reference =>
      refine ⟨_, ?_, .synonym declared (reference.retouch .erasing)⟩
      refine .name wellFormed [.leftBrace, .name] rfl (by decide) rfl ?_ .done
      rw [← reference.ofToken_token]
      rfl
  | record fields span =>
      refine ⟨_, ?_, .ended _⟩
      refine .word .leftBrace [.leftBrace, .name] rfl (by decide) (by decide) rfl rfl ?_
      have inside := @Field.listRuns finished fields wellFormed (.ofDeclaration declared default [])
      rw [OpenRecord.addAll_ofDeclaration, List.nil_append] at inside
      exact inside.append (.word .rightBrace [.docComment, .name, .rightBrace] rfl (by decide)
        (by decide) rfl rfl .done)

theorem DeclarationBody.runs {body : DeclarationBody} (wellFormed : body.isWellFormed = true)
    (declared : NamedHeading) :
    ∃ last, Draft.Runs
        ⟨finished, some (.afterName (declared.declare body default).kind declared)⟩
        body.tokens last ∧
      last.IsBetween (finished ++
        [.declaring (declared.declare (body.retouch .erasing) default)]) := by
  cases body with
  | type expression =>
      rcases @TypeExpression.runs_declared finished expression wellFormed declared with
        ⟨last, runs, between⟩
      refine ⟨last, ?_, between⟩
      exact .word .colon [.colon] rfl (by decide) (by decide) rfl rfl runs
  | interface operations =>
      rcases @Operation.listRuns finished operations wellFormed _ declared []
        .beforeOperation with ⟨last, runs, inside⟩
      refine ⟨_, ?_, .ended _⟩
      refine .word .leftBrace [.leftBrace] rfl (by decide) (by decide) rfl rfl (runs.append ?_)
      refine .word .rightBrace last.sought rfl (inside.sought _ (by decide)) inside.noPath
        rfl (inside.goesOn _ _ rfl) .done
  | service embeds implements =>
      rw [DeclarationBody.isWellFormed, Bool.and_eq_true] at wellFormed
      rcases (@Draft.IsInService.beforeItem finished declared [] []).runs_embeds wellFormed.1 with
        ⟨middle, runs, inside⟩
      rcases inside.runs_implements wellFormed.2 with ⟨last, runsOn, insideLast⟩
      refine ⟨_, ?_, .ended _⟩
      refine .word .leftBrace [.leftBrace] rfl (by decide) (by decide) rfl rfl
        (runs.append (runsOn.append ?_))
      exact insideLast.word (by decide) rfl rfl .done

theorem Declaration.runs {declaration : Declaration} (wellFormed : declaration.isWellFormed = true)
    {draft : Draft} (between : draft.IsBetween finished) :
    ∃ last, draft.Runs declaration.tokens last ∧
      last.IsBetween (finished ++ [.declaring (declaration.retouch .erasing)]) := by
  rcases declaration with ⟨name, documentation, body, span⟩
  rw [Declaration.isWellFormed, Bool.and_eq_true] at wellFormed
  rcases @DeclarationBody.runs finished body wellFormed.2 ⟨⟨documentation, default⟩, name⟩ with
    ⟨last, runs, betweenLast⟩
  refine ⟨last, ?_, betweenLast⟩
  rw [Declaration.tokens, List.append_cons]
  refine (between.runs_word _ documentation).append ?_
  refine .name wellFormed.1 [.name] rfl (by decide) rfl ?_ runs
  show some _ = some _
  rw [Heading.named, Token.string_ofName]
  rfl

theorem Statement.runs {statement : Statement} (wellFormed : statement.isWellFormed = true)
    {draft : Draft} (between : draft.IsBetween finished) :
    ∃ last, draft.Runs statement.tokens last ∧
      last.IsBetween (finished ++ [statement.retouch .erasing]) := by
  cases statement with
  | importing statement => exact between.runs_import wellFormed
  | declaring declaration => exact declaration.runs wellFormed between

theorem Statement.listRuns {statements : List Statement}
    (wellFormed : statements.all Statement.isWellFormed = true) {draft : Draft}
    (between : draft.IsBetween finished) :
    ∃ last, draft.Runs (statements.flatMap Statement.tokens) last ∧
      last.IsBetween (finished ++ statements.map (Statement.retouch .erasing)) := by
  induction statements generalizing draft finished with
  | nil =>
      rw [List.map_nil, List.append_nil]
      exact ⟨draft, .done, between⟩
  | cons statement statements induction =>
      rw [List.all_cons, Bool.and_eq_true] at wellFormed
      rcases statement.runs wellFormed.1 between with ⟨middle, runs, betweenMiddle⟩
      rcases induction wellFormed.2 betweenMiddle with ⟨last, runsOn, betweenLast⟩
      rw [List.append_assoc, List.singleton_append] at betweenLast
      exact ⟨last, runs.append runsOn, betweenLast⟩

/-! ## Programs -/

namespace Program

theorem parse_print {program : Program} (wellFormed : program.isWellFormed = true) :
    ∃ read, parse program.print = .ok read ∧ read.withoutPlaces = program.withoutPlaces := by
  rcases Statement.listRuns wellFormed Draft.IsBetween.empty with ⟨last, runs, between⟩
  rcases runs.exists_parse between.finishes with ⟨read, parsed, same⟩
  refine ⟨read, parsed, ?_⟩
  rw [List.nil_append] at same
  exact same.trans (withoutPlaces_retouch .erasing program)

/-- The text of a well-formed program is read as this program, up to the places of its nodes, and
as this program without its documentation where documentation is not kept. -/
theorem ofText_print {program : Program} (wellFormed : program.isWellFormed = true)
    (keepsDocumentation : Bool) (uri : String) :
    ∃ read, ofText keepsDocumentation uri program.print = .ok read ∧
      read.withoutPlaces =
        (if keepsDocumentation then program else program.withoutDocumentation).withoutPlaces := by
  rcases parse_print wellFormed with ⟨read, parsed, same⟩
  refine ⟨_, by rw [ofText_eq_parse, parsed], ?_⟩
  cases keepsDocumentation with
  | true => exact same
  | false =>
      have erased := congrArg withoutDocumentation same
      rw [withoutPlaces, withoutPlaces, withoutDocumentation_retouch,
        withoutDocumentation_retouch] at erased
      exact erased

/-- An import over two targets, a documented record in a record whose fields have the names of
keywords, an interface and a service. -/
theorem ofText_print_sample :
    let order : Program := ⟨[
      .importing ⟨⟨2, ["shared", "import"]⟩,
        [⟨"type", some "as", default⟩, ⟨"Item", none, default⟩], default, default⟩,
      .declaring ⟨"service", some "An order\n  of a customer", .type (.record [
        .mk "interface" none (.named ⟨"from", default⟩) default,
        .mk "items" (some "") (.record [
          .mk "type" none (.record [] default) default] default) default] default), default⟩,
      .declaring ⟨"OrderApi", none, .interface [
        ⟨"place", some "One order", some ⟨"service", default⟩, some ⟨"type", default⟩, default⟩,
        ⟨"service", none, none, none, default⟩], default⟩,
      .declaring ⟨"Orders", some "/// Everything", .service [⟨"implements", default⟩]
        [⟨"OrderApi", default⟩, ⟨"embeds", default⟩], default⟩]⟩
    order.isWellFormed = true ∧
      ∃ read, ofText false "memory:///orders.mg" order.print = .ok read ∧
        read.withoutPlaces =
          (if false then order else order.withoutDocumentation).withoutPlaces := by
  intro order
  have wellFormed : order.isWellFormed = true := by decide
  exact ⟨wellFormed, ofText_print wellFormed false "memory:///orders.mg"⟩

end Program

end ServiceModules
