import ServiceModules.Proofs.Draft.Retouch
import ServiceModules.Proofs.Program.Members

/-!
The members of a draft. A draft in front of a member takes documentation and names; a member that a
draft knows was begun in front of it, with its name or with its documentation, and behind
documentation the name followed.
-/

namespace ServiceModules

def NamedHeading.member (heading : NamedHeading) : Member := ⟨heading.start, heading.name⟩

namespace OpenRecord

def members : OpenRecord → List Member
  | .ofDeclaration _ _ fields => fields.flatMap Field.members
  | .ofField outer field _ fields => outer.members ++ field.member :: fields.flatMap Field.members

end OpenRecord

namespace RecordPlace

def members : RecordPlace → List Member
  | .beforeField | .afterDocumentation _ => []
  | .afterName field | .afterColon field => [field.member]

end RecordPlace

namespace InterfacePlace

def members : InterfacePlace → List Member
  | .beforeOperation | .afterDocumentation _ => []
  | .afterName operation | .inRequest operation | .afterRequestType operation _
  | .afterRequest operation _ _ | .afterArrow operation _ => [operation.member]

end InterfacePlace

namespace Fragment

def members : Fragment → List Member
  | .inRecord record place => record.members ++ place.members
  | .inInterface _ operations place => operations.map Operation.member ++ place.members
  | .ended declaration => declaration.body.members
  | _ => []

def memberDocumentation? : Fragment → Option Documentation
  | .inRecord _ place => place.documentation?
  | .inInterface _ _ place => place.documentation?
  | _ => none

end Fragment

namespace Draft

def members (draft : Draft) : List Member :=
  draft.finished.flatMap Statement.members ++ (draft.current.map Fragment.members).getD []

def memberDocumentation? (draft : Draft) : Option Documentation :=
  draft.current.bind Fragment.memberDocumentation?

/-- The draft stands where a member may begin. It goes on behind the documentation of this member,
or behind its name. -/
inductive IsBeforeMember :
    Draft → (Documentation → Fragment) → (NamedHeading → Fragment) → Prop
  | inRecord (finished : List Statement) (record : OpenRecord) :
    IsBeforeMember ⟨finished, some (.inRecord record .beforeField)⟩
      (fun documentation => .inRecord record (.afterDocumentation documentation))
      (fun field => .inRecord record (.afterName field))
  | inInterface (finished : List Statement) (declared : NamedHeading)
      (operations : List Operation) :
    IsBeforeMember ⟨finished, some (.inInterface declared operations .beforeOperation)⟩
      (fun documentation => .inInterface declared operations (.afterDocumentation documentation))
      (fun operation => .inInterface declared operations (.afterName operation))
  | afterRequest (finished : List Statement) (declared : NamedHeading)
      (operations : List Operation) (last : NamedHeading) (request : Option TypeReference)
      (stop : Position) :
    IsBeforeMember
      ⟨finished, some (.inInterface declared operations (.afterRequest last request stop))⟩
      (fun documentation =>
        .inInterface declared (operations ++ [last.operation request none stop])
          (.afterDocumentation documentation))
      (fun operation =>
        .inInterface declared (operations ++ [last.operation request none stop])
          (.afterName operation))

inductive Names (draft : Draft) (token : Token) : Member → Prop
  | plain {place : Documentation → Fragment} {owner : NamedHeading → Fragment}
      (before : draft.IsBeforeMember place owner) (named : token.terminal = .name) :
    Names draft token ⟨token.span.start, token.string⟩
  | documented {documentation : Documentation}
      (isOpen : documentation ∈ draft.memberDocumentation?) (named : token.terminal = .name) :
    Names draft token ⟨documentation.start, token.string⟩

structure Documents (draft : Draft) (token : Token) (documentation : Documentation) : Prop where
  before : ∃ place owner, draft.IsBeforeMember place owner
  commented : token.terminal = .docComment
  start : documentation.start = token.span.start

end Draft

/-! ## What a token adds -/

variable {finished : List Statement} {token : Token} {extended : Fragment} {member : Member}

theorem OpenRecord.members_addTyped (record : OpenRecord) (field : NamedHeading)
    (type : TypeExpression) :
    (record.addTyped field type).members = record.members ++ field.member :: type.members := by
  cases record with
  | ofDeclaration declared start fields =>
      rw [addTyped, add, members, members, List.flatMap_append, List.flatMap_singleton,
        Field.members_mk]
      rfl
  | ofField outer owner start fields =>
      rw [addTyped, add, members, members, List.flatMap_append, List.flatMap_singleton,
        Field.members_mk, List.append_assoc]
      rfl

theorem OpenRecord.members_close (record : OpenRecord) (token : Token) :
    (record.close token).members = record.members := by
  cases record with
  | ofDeclaration declared start fields =>
      exact TypeExpression.members_record fields ⟨start, token.span.stop⟩
  | ofField outer field start fields =>
      rw [close, Fragment.members, members_addTyped, TypeExpression.members_record,
        RecordPlace.members, List.append_nil, members]

theorem OpenRecord.memberDocumentation?_close (record : OpenRecord) (token : Token) :
    (record.close token).memberDocumentation? = none := by
  cases record <;> rfl

theorem RecordPlace.members_extend {record : OpenRecord} {place : RecordPlace}
    (step : place.extend record token = some extended) (isMember : member ∈ extended.members) :
    member ∈ record.members ++ place.members ∨
      Draft.Names ⟨finished, some (.inRecord record place)⟩ token member := by
  unfold extend at step
  split at step
  · cases step
    exact .inl isMember
  · next named =>
    cases step
    rcases List.mem_append.mp isMember with old | new
    · exact .inl (List.mem_append_left _ old)
    · cases List.mem_singleton.mp new
      exact .inr (.plain (.inRecord finished record) named)
  · cases step
    rw [OpenRecord.members_close] at isMember
    exact .inl (List.mem_append_left _ isMember)
  · cases step
    exact .inl isMember
  · next documentation named =>
    cases step
    rcases List.mem_append.mp isMember with old | new
    · exact .inl (List.mem_append_left _ old)
    · cases List.mem_singleton.mp new
      exact .inr (.documented rfl named)
  · cases step
    exact .inl isMember
  · cases step
    rw [Fragment.members, OpenRecord.members_addTyped, members, List.append_nil] at isMember
    exact .inl isMember
  · cases step
    rw [Fragment.members, members, List.append_nil] at isMember
    exact .inl isMember
  · cases step

theorem RecordPlace.memberDocumentation?_extend {record : OpenRecord} {place : RecordPlace}
    (step : place.extend record token = some extended) {documentation : Documentation}
    (isOpen : documentation ∈ extended.memberDocumentation?) :
    (∃ earlier ∈ place.documentation?, earlier.start = documentation.start) ∨
      Draft.Documents ⟨finished, some (.inRecord record place)⟩ token documentation := by
  unfold extend at step
  split at step
  · next commented =>
    cases step
    cases isOpen
    exact .inr ⟨⟨_, _, .inRecord finished record⟩, commented, rfl⟩
  · cases step
    cases isOpen
  · cases step
    rw [OpenRecord.memberDocumentation?_close] at isOpen
    cases isOpen
  · next earlier _ =>
    cases step
    cases isOpen
    exact .inl ⟨earlier, rfl, rfl⟩
  all_goals
    cases step
    try cases isOpen

theorem InterfacePlace.members_extendBody {draft : Draft} {declared : NamedHeading}
    {operations : List Operation} {place : Documentation → Fragment}
    {owner : NamedHeading → Fragment} (before : draft.IsBeforeMember place owner)
    (step : extendBody declared operations token = some extended)
    (isMember : member ∈ extended.members) :
    member ∈ operations.map Operation.member ∨ draft.Names token member := by
  unfold extendBody at step
  split at step
  · cases step
    rw [Fragment.members, members, List.append_nil] at isMember
    exact .inl isMember
  · next named =>
    cases step
    rcases List.mem_append.mp isMember with old | new
    · exact .inl old
    · cases List.mem_singleton.mp new
      exact .inr (.plain before named)
  · cases step
    exact .inl isMember
  · cases step

theorem InterfacePlace.memberDocumentation?_extendBody {draft : Draft} {declared : NamedHeading}
    {operations : List Operation} {place : Documentation → Fragment}
    {owner : NamedHeading → Fragment} (before : draft.IsBeforeMember place owner)
    (step : extendBody declared operations token = some extended) {documentation : Documentation}
    (isOpen : documentation ∈ extended.memberDocumentation?) :
    draft.Documents token documentation := by
  unfold extendBody at step
  split at step
  · next commented =>
    cases step
    cases isOpen
    exact ⟨⟨_, _, before⟩, commented, rfl⟩
  all_goals
    cases step
    try cases isOpen

theorem NamedHeading.member_operation (operations : List Operation) (heading : NamedHeading)
    (request response : Option TypeReference) (stop : Position) :
    (operations ++ [heading.operation request response stop]).map Operation.member =
      operations.map Operation.member ++ [heading.member] := by
  rw [List.map_append]
  rfl

theorem InterfacePlace.members_extend {declared : NamedHeading} {operations : List Operation}
    {place : InterfacePlace} (step : place.extend declared operations token = some extended)
    (isMember : member ∈ extended.members) :
    member ∈ operations.map Operation.member ++ place.members ∨
      Draft.Names ⟨finished, some (.inInterface declared operations place)⟩ token member := by
  unfold extend at step
  split at step
  · rw [members, List.append_nil]
    exact members_extendBody (.inInterface finished declared operations) step isMember
  · cases step
    exact .inl isMember
  · next documentation named =>
    cases step
    rcases List.mem_append.mp isMember with old | new
    · exact .inl (List.mem_append_left _ old)
    · cases List.mem_singleton.mp new
      exact .inr (.documented rfl named)
  · cases step
    exact .inl isMember
  · cases step
    exact .inl isMember
  · cases step
    exact .inl isMember
  · cases step
    exact .inl isMember
  · cases step
    exact .inl isMember
  · next operation request stop _ =>
    rw [members, ← operation.member_operation operations request none stop]
    exact members_extendBody (.afterRequest finished declared operations operation request stop)
      step isMember
  · cases step
    rw [Fragment.members, NamedHeading.member_operation, members, List.append_nil] at isMember
    exact .inl isMember
  · cases step

theorem InterfacePlace.memberDocumentation?_extend {declared : NamedHeading}
    {operations : List Operation} {place : InterfacePlace}
    (step : place.extend declared operations token = some extended)
    {documentation : Documentation} (isOpen : documentation ∈ extended.memberDocumentation?) :
    (∃ earlier ∈ place.documentation?, earlier.start = documentation.start) ∨
      Draft.Documents ⟨finished, some (.inInterface declared operations place)⟩ token
        documentation := by
  unfold extend at step
  split at step
  · exact .inr (memberDocumentation?_extendBody (.inInterface finished declared operations) step
      isOpen)
  · next earlier _ =>
    cases step
    cases isOpen
    exact .inl ⟨earlier, rfl, rfl⟩
  case h_9 operation request stop _ =>
    exact .inr (memberDocumentation?_extendBody
      (.afterRequest finished declared operations operation request stop) step isOpen)
  all_goals
    cases step
    try cases isOpen

theorem Fragment.members_extend {fragment : Fragment}
    (step : fragment.extend token = some extended) (isMember : member ∈ extended.members) :
    member ∈ fragment.members ∨ Draft.Names ⟨finished, some fragment⟩ token member := by
  cases fragment with
  | inRecord record place => exact place.members_extend step isMember
  | inInterface declared operations place => exact place.members_extend step isMember
  | importing fragment =>
      rcases Option.map_eq_some_iff.mp step with ⟨next, _, rfl⟩
      cases isMember
  | inService declared embeds implements place =>
      rcases token with ⟨terminal, text, span⟩
      cases place <;> cases terminal <;> cases step <;> cases isMember
  | afterName kind declared =>
      rcases token with ⟨terminal, text, span⟩
      cases kind <;> cases terminal <;> cases step <;> cases isMember
  | _ =>
      rcases token with ⟨terminal, text, span⟩
      cases terminal <;> cases step <;> cases isMember

theorem Fragment.memberDocumentation?_extend {fragment : Fragment}
    (step : fragment.extend token = some extended) {documentation : Documentation}
    (isOpen : documentation ∈ extended.memberDocumentation?) :
    (∃ earlier ∈ fragment.memberDocumentation?, earlier.start = documentation.start) ∨
      Draft.Documents ⟨finished, some fragment⟩ token documentation := by
  cases fragment with
  | inRecord record place => exact place.memberDocumentation?_extend step isOpen
  | inInterface declared operations place => exact place.memberDocumentation?_extend step isOpen
  | importing fragment =>
      rcases Option.map_eq_some_iff.mp step with ⟨next, _, rfl⟩
      cases isOpen
  | inService declared embeds implements place =>
      rcases token with ⟨terminal, text, span⟩
      cases place <;> cases terminal <;> cases step <;> cases isOpen
  | afterName kind declared =>
      rcases token with ⟨terminal, text, span⟩
      cases kind <;> cases terminal <;> cases step <;> cases isOpen
  | _ =>
      rcases token with ⟨terminal, text, span⟩
      cases terminal <;> cases step <;> cases isOpen

theorem Fragment.members_begin? {fragment : Fragment} (begins : begin? token = some fragment) :
    fragment.members = [] ∧ fragment.memberDocumentation? = none := by
  unfold begin? at begins
  split at begins <;> cases begins <;> exact ⟨rfl, rfl⟩

theorem Fragment.members_close? {fragment : Fragment} {statement : Statement}
    (closes : fragment.close? = some statement) : statement.members = fragment.members := by
  unfold close? at closes
  split at closes
  · rcases Option.map_eq_some_iff.mp closes with ⟨importing, _, rfl⟩
    rfl
  · cases closes
    rfl
  · cases closes
    rfl
  · cases closes

namespace Draft

variable {draft next : Draft}

/-- A token adds no member but the one that it is the name of. -/
theorem members_step (step : draft.step token = some next) (isMember : member ∈ next.members) :
    member ∈ draft.members ∨ draft.Names token member := by
  rcases draft with ⟨finished, current⟩
  rcases step_cases step with ⟨fragment, extended, rfl, longer, rfl⟩ |
    ⟨rfl, begun, begins, rfl⟩ | ⟨fragment, statement, begun, rfl, _, closes, begins, rfl⟩
  -- Only a token that goes on with the statement can be the name of a member.
  · rcases List.mem_append.mp isMember with old | inFragment
    · exact .inl (List.mem_append_left _ old)
    · rcases Fragment.members_extend longer inFragment with old | new
      · exact .inl (List.mem_append_right _ old)
      · exact .inr new
  · rw [members, Option.map_some, Option.getD_some, (Fragment.members_begin? begins).1]
      at isMember
    exact .inl isMember
  · rw [members, Option.map_some, Option.getD_some, (Fragment.members_begin? begins).1,
      List.flatMap_append, List.flatMap_singleton, Fragment.members_close? closes,
      List.append_nil] at isMember
    exact .inl isMember

theorem memberDocumentation?_step (step : draft.step token = some next)
    {documentation : Documentation} (isOpen : documentation ∈ next.memberDocumentation?) :
    (∃ earlier ∈ draft.memberDocumentation?, earlier.start = documentation.start) ∨
      draft.Documents token documentation := by
  rcases draft with ⟨finished, current⟩
  rcases step_cases step with ⟨fragment, extended, rfl, longer, rfl⟩ |
    ⟨rfl, begun, begins, rfl⟩ | ⟨fragment, statement, begun, rfl, _, closes, begins, rfl⟩
  · exact Fragment.memberDocumentation?_extend longer isOpen
  · rw [memberDocumentation?, Option.bind_some, (Fragment.members_begin? begins).2] at isOpen
    cases isOpen
  · rw [memberDocumentation?, Option.bind_some, (Fragment.members_begin? begins).2] at isOpen
    cases isOpen

theorem members_finish? {program : Program} (finishes : draft.finish? = some program) :
    program.members = draft.members := by
  rcases draft with ⟨finished, current⟩
  cases current with
  | none =>
      cases finishes
      rw [Program.members_eq, members]
      exact (List.append_nil _).symm
  | some fragment =>
      rcases Option.map_eq_some_iff.mp finishes with ⟨statement, closes, rfl⟩
      rw [Program.members_eq, members, List.flatMap_append, List.flatMap_singleton,
        Fragment.members_close? closes]
      rfl

end Draft

end ServiceModules
