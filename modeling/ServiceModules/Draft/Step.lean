import ServiceModules.Draft.Basic

/-!
Adding a token to a draft. `Draft.step` fails exactly when no program continues the draft with the
token, and `Draft.finish?` succeeds exactly when the draft is a whole program. `Draft.sought` lists
the terminals that are looked for in the text behind the draft. It may list more than the step
accepts: behind a name that refers to a type, and behind documentation, the terminals are those
that can follow there in any part of a program. Whether documentation is kept matters only where a
heading follows it.
-/

namespace ServiceModules

namespace ImportFragment

def sought : ImportFragment → List Terminal
  | .afterFrom _ => [.importPath]
  | .afterPath _ _ _ => [.importWord]
  | .beforeTarget _ => [.name]
  | .afterTarget _ _ =>
    [.asWord, .comma, .docComment, .fromWord, .interfaceWord, .serviceWord, .typeWord]
  | .afterAs _ _ => [.name]
  | .afterRenaming _ _ => [.comma, .docComment, .fromWord, .interfaceWord, .serviceWord, .typeWord]

def extend (fragment : ImportFragment) (token : Token) : Option ImportFragment :=
  match fragment, token.terminal with
  | .afterFrom start, .importPath => some (.afterPath start (.ofText token.string) token.span)
  | .afterPath start path span, .importWord => some (.beforeTarget ⟨start, path, span, []⟩)
  | .beforeTarget clause, .name => some (.afterTarget clause ⟨token.string, none, token.span⟩)
  | .afterTarget clause last, .asWord => some (.afterAs clause last)
  | .afterTarget clause last, .comma => some (.beforeTarget (clause.add last))
  | .afterAs clause last, .name =>
    some (.afterRenaming clause
      { last with renamed := some token.string, span := last.span.upTo token.span })
  | .afterRenaming clause last, .comma => some (.beforeTarget (clause.add last))
  | _, _ => none

def close? : ImportFragment → Option ImportStatement
  | .afterTarget clause last => some (clause.statement last)
  | .afterRenaming clause last => some (clause.statement last)
  | _ => none

end ImportFragment

namespace OpenRecord

/-- Closes the record with the brace `token`: the declaration or the field that it is the type
of becomes complete. -/
def close (record : OpenRecord) (token : Token) : Fragment :=
  match record with
  | .ofDeclaration declared start fields =>
    .ended (declared.declare (.type (.record fields ⟨start, token.span.stop⟩)) token.span.stop)
  | .ofField outer field start fields =>
    .inRecord (outer.addTyped field (.record fields ⟨start, token.span.stop⟩)) .beforeField

end OpenRecord

namespace RecordPlace

def sought : RecordPlace → List Terminal
  | .beforeField => [.docComment, .name, .rightBrace]
  | .afterDocumentation _ => Documentation.followers
  | .afterName _ => [.colon]
  | .afterColon _ => [.leftBrace, .name]

def extend (record : OpenRecord) (place : RecordPlace) (token : Token)
    (keepsDocumentation : Bool := true) : Option Fragment :=
  match place, token.terminal with
  | .beforeField, .docComment => some (.inRecord record (.afterDocumentation (.ofToken token)))
  | .beforeField, .name => some (.inRecord record (.afterName ((Heading.plain token).named token)))
  | .beforeField, .rightBrace => some (record.close token)
  | .afterDocumentation documentation, .docComment =>
    some (.inRecord record (.afterDocumentation (documentation.add token)))
  | .afterDocumentation documentation, .name =>
    some (.inRecord record
      (.afterName ((Heading.documented documentation keepsDocumentation).named token)))
  | .afterName field, .colon => some (.inRecord record (.afterColon field))
  | .afterColon field, .name =>
    some (.inRecord (record.addTyped field (.named (.ofToken token))) .beforeField)
  | .afterColon field, .leftBrace =>
    some (.inRecord (.ofField record field token.span.start []) .beforeField)
  | _, _ => none

end RecordPlace

/-- The terminals that can follow a name that refers to a type somewhere in a program. -/
def TypeReference.followers : List Terminal :=
  [.comma, .docComment, .embedsWord, .fromWord, .implementsWord, .interfaceWord, .rightBrace,
    .rightParenthesis, .serviceWord, .typeWord]

namespace InterfacePlace

def sought : InterfacePlace → List Terminal
  | .beforeOperation => [.docComment, .name, .rightBrace]
  | .afterDocumentation _ => Documentation.followers
  | .afterName _ => [.leftParenthesis]
  | .inRequest _ => [.name, .rightParenthesis]
  | .afterRequestType _ _ => TypeReference.followers
  | .afterRequest _ _ _ => [.docComment, .name, .rightBrace, .arrow]
  | .afterArrow _ _ => [.name]

def extendBody (declared : NamedHeading) (operations : List Operation) (token : Token) :
    Option Fragment :=
  match token.terminal with
  | .docComment => some (.inInterface declared operations (.afterDocumentation (.ofToken token)))
  | .name =>
    some (.inInterface declared operations (.afterName ((Heading.plain token).named token)))
  | .rightBrace => some (.ended (declared.declare (.interface operations) token.span.stop))
  | _ => none

def extend (declared : NamedHeading) (operations : List Operation) (place : InterfacePlace)
    (token : Token) (keepsDocumentation : Bool := true) : Option Fragment :=
  match place, token.terminal with
  | .beforeOperation, _ => extendBody declared operations token
  | .afterDocumentation documentation, .docComment =>
    some (.inInterface declared operations (.afterDocumentation (documentation.add token)))
  | .afterDocumentation documentation, .name =>
    some (.inInterface declared operations
      (.afterName ((Heading.documented documentation keepsDocumentation).named token)))
  | .afterName operation, .leftParenthesis =>
    some (.inInterface declared operations (.inRequest operation))
  | .inRequest operation, .name =>
    some (.inInterface declared operations (.afterRequestType operation (.ofToken token)))
  | .inRequest operation, .rightParenthesis =>
    some (.inInterface declared operations (.afterRequest operation none token.span.stop))
  | .afterRequestType operation request, .rightParenthesis =>
    some (.inInterface declared operations (.afterRequest operation (some request) token.span.stop))
  | .afterRequest operation request _, .arrow =>
    some (.inInterface declared operations (.afterArrow operation request))
  | .afterRequest operation request stop, _ =>
    extendBody declared (operations ++ [operation.operation request none stop]) token
  | .afterArrow operation request, .name =>
    some (.inInterface declared
      (operations ++ [operation.operation request (some (.ofToken token)) token.span.stop])
      .beforeOperation)
  | _, _ => none

end InterfacePlace

namespace ServicePlace

def sought : ServicePlace → List Terminal
  | .beforeItem => [.embedsWord, .implementsWord, .rightBrace]
  | .afterEmbeds => [.name]
  | .afterEmbedded => TypeReference.followers
  | .beforeImplemented => [.name]
  | .afterImplemented => TypeReference.followers

def extendBody (declared : NamedHeading) (embeds implements : List TypeReference)
    (token : Token) : Option Fragment :=
  match token.terminal with
  | .embedsWord => some (.inService declared embeds implements .afterEmbeds)
  | .implementsWord => some (.inService declared embeds implements .beforeImplemented)
  | .rightBrace => some (.ended (declared.declare (.service embeds implements) token.span.stop))
  | _ => none

def extend (declared : NamedHeading) (embeds implements : List TypeReference)
    (place : ServicePlace) (token : Token) : Option Fragment :=
  match place, token.terminal with
  | .beforeItem, _ => extendBody declared embeds implements token
  | .afterEmbeds, .name =>
    some (.inService declared (embeds ++ [.ofToken token]) implements .afterEmbedded)
  | .afterEmbedded, _ => extendBody declared embeds implements token
  | .beforeImplemented, .name =>
    some (.inService declared embeds (implements ++ [.ofToken token]) .afterImplemented)
  | .afterImplemented, .comma => some (.inService declared embeds implements .beforeImplemented)
  | .afterImplemented, _ => extendBody declared embeds implements token
  | _, _ => none

end ServicePlace

namespace Fragment

def begin? (token : Token) : Option Fragment :=
  match token.terminal with
  | .fromWord => some (.importing (.afterFrom token.span.start))
  | .docComment => some (.afterDocumentation (.ofToken token))
  | .typeWord => some (.afterWord .type (.plain token))
  | .interfaceWord => some (.afterWord .interface (.plain token))
  | .serviceWord => some (.afterWord .service (.plain token))
  | _ => none

def beginnings : List Terminal :=
  [.docComment, .fromWord, .interfaceWord, .serviceWord, .typeWord]

def sought : Fragment → List Terminal
  | .importing fragment => fragment.sought
  | .afterDocumentation _ => Documentation.followers
  | .afterWord _ _ => [.name]
  | .afterName .type _ => [.colon]
  | .afterName .interface _ => [.leftBrace]
  | .afterName .service _ => [.leftBrace]
  | .afterColon _ => [.leftBrace, .name]
  | .synonym _ _ => TypeReference.followers
  | .inRecord _ place => place.sought
  | .inInterface _ _ place => place.sought
  | .inService _ _ _ place => place.sought
  | .ended _ => beginnings

def extend (fragment : Fragment) (token : Token) (keepsDocumentation : Bool := true) :
    Option Fragment :=
  match fragment with
  | .importing fragment => (fragment.extend token).map .importing
  | .afterDocumentation documentation =>
    match token.terminal with
    | .docComment => some (.afterDocumentation (documentation.add token))
    | .typeWord => some (.afterWord .type (.documented documentation keepsDocumentation))
    | .interfaceWord =>
      some (.afterWord .interface (.documented documentation keepsDocumentation))
    | .serviceWord => some (.afterWord .service (.documented documentation keepsDocumentation))
    | _ => none
  | .afterWord kind heading =>
    match token.terminal with
    | .name => some (.afterName kind (heading.named token))
    | _ => none
  | .afterName kind declared =>
    match kind, token.terminal with
    | .type, .colon => some (.afterColon declared)
    | .interface, .leftBrace => some (.inInterface declared [] .beforeOperation)
    | .service, .leftBrace => some (.inService declared [] [] .beforeItem)
    | _, _ => none
  | .afterColon declared =>
    match token.terminal with
    | .name => some (.synonym declared (.ofToken token))
    | .leftBrace => some (.inRecord (.ofDeclaration declared token.span.start []) .beforeField)
    | _ => none
  | .synonym _ _ => none
  | .inRecord record place => place.extend record token keepsDocumentation
  | .inInterface declared operations place =>
    place.extend declared operations token keepsDocumentation
  | .inService declared embeds implements place => place.extend declared embeds implements token
  | .ended _ => none

/-- The statement, if it may end here. -/
def close? : Fragment → Option Statement
  | .importing fragment => fragment.close?.map .importing
  | .synonym declared reference =>
    some (.declaring (declared.declare (.type (.named reference)) reference.span.stop))
  | .ended declaration => some (.declaring declaration)
  | _ => none

/-- Whether the last token was documentation, so that more of it may follow. -/
def isDocumented : Fragment → Bool
  | .afterDocumentation _ => true
  | .inRecord _ (.afterDocumentation _) => true
  | .inInterface _ _ (.afterDocumentation _) => true
  | _ => false

end Fragment

namespace Draft

def sought (draft : Draft) : List Terminal :=
  match draft.current with
  | none => Fragment.beginnings
  | some fragment => fragment.sought

def step (draft : Draft) (token : Token) (keepsDocumentation : Bool := true) : Option Draft :=
  match draft.current with
  | none => (Fragment.begin? token).map fun fragment => ⟨draft.finished, some fragment⟩
  | some fragment =>
    match fragment.extend token keepsDocumentation with
    | some extended => some ⟨draft.finished, some extended⟩
    | none =>
      match fragment.close? with
      | some statement =>
        (Fragment.begin? token).map fun begun => ⟨draft.finished ++ [statement], some begun⟩
      | none => none

def finish? (draft : Draft) : Option Program :=
  match draft.current with
  | none => some ⟨draft.finished⟩
  | some fragment => fragment.close?.map fun statement => ⟨draft.finished ++ [statement]⟩

def isDocumented (draft : Draft) : Bool := draft.current.any Fragment.isDocumented

/-- Whether a token of this terminal can follow. Its text and its span play no part. -/
def accepts (draft : Draft) (terminal : Terminal) : Bool :=
  (draft.step ⟨terminal, [], default⟩).isSome

end Draft

end ServiceModules
