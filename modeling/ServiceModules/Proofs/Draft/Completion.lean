import ServiceModules.Proofs.Draft.Runs
import ServiceModules.Proofs.Draft.Step

/-!
Completing a draft. Whatever a draft accepts is looked for behind it, so that it can be written
there, and every draft leads to a whole program by a few more tokens. Hence no reading ever comes to
a dead end: what was read is always the beginning of some program.
-/

namespace ServiceModules

/-! ## A text for every terminal -/

namespace Terminal

/-- A text of the terminal that is a text of no other one. -/
def sample (terminal : Terminal) : List Char :=
  match terminal with
  | .name => ['a']
  | .importPath => ['.', 'a']
  | .docComment => ['/', '/', '/']
  | terminal => terminal.spelling?.getD []

end Terminal

namespace Token

def sample (terminal : Terminal) : Token := ⟨terminal, terminal.sample, default⟩

theorem isClear_sample_all (terminal : Terminal) : (sample terminal).IsClear Terminal.all := by
  cases terminal <;> rfl

theorem isClear_sample {sought : List Terminal} {terminal : Terminal} (member : terminal ∈ sought)
    (alone : sought = [.importPath] ∨ .importPath ∉ sought) :
    (sample terminal).IsClear sought := by
  rcases alone with rfl | noPath
  · cases List.mem_singleton.mp member
    rfl
  · cases spelled : terminal.spelling? with
    | some spelling =>
        have written : sample terminal = ofWord terminal := by
          cases terminal <;> cases spelled <;> rfl
        rw [written]
        exact isClear_ofWord spelled member noPath
    | none =>
        cases terminal <;> cases spelled
        · exact Lexeme.scan_of_docComment? member rfl
        · exact absurd member noPath
        · have free : ∀ terminal ∈ sought, terminal.spelling? ≠ some ['a'] := by
            intro terminal _
            cases terminal <;> decide
          have named : Lexeme.name? ['a'] = some ['a'] := rfl
          have scanned := Lexeme.scan_of_name? member named
          rw [Terminal.classify_name_of_free free] at scanned
          exact scanned

end Token

/-! ## What is accepted is looked for -/

namespace ImportFragment

variable {fragment : ImportFragment} {token : Token}

theorem mem_sought_of_extend {extended : ImportFragment}
    (step : fragment.extend token = some extended) : token.terminal ∈ fragment.sought := by
  unfold extend at step
  split at step <;> simp_all [sought]

theorem mem_sought_of_close? {statement : ImportStatement}
    (closes : fragment.close? = some statement) {terminal : Terminal}
    (begins : terminal ∈ Fragment.beginnings) : terminal ∈ fragment.sought := by
  have afterTarget : ∀ terminal ∈ Fragment.beginnings, terminal ∈
      [Terminal.asWord, .comma, .docComment, .fromWord, .interfaceWord, .serviceWord,
        .typeWord] := by decide
  have afterRenaming : ∀ terminal ∈ Fragment.beginnings, terminal ∈
      [Terminal.comma, .docComment, .fromWord, .interfaceWord, .serviceWord, .typeWord] := by
    decide
  unfold close? at closes
  split at closes
  · exact afterTarget terminal begins
  · exact afterRenaming terminal begins
  · cases closes

end ImportFragment

theorem RecordPlace.mem_sought_of_extend {record : OpenRecord} {place : RecordPlace}
    {token : Token} {extended : Fragment} (step : place.extend record token = some extended) :
    token.terminal ∈ place.sought := by
  unfold extend at step
  split at step <;> simp_all [sought, Documentation.followers]

namespace InterfacePlace

variable {declared : NamedHeading} {operations : List Operation} {token : Token}
  {extended : Fragment}

theorem mem_of_extendBody (step : extendBody declared operations token = some extended) :
    token.terminal ∈ beforeOperation.sought := by
  unfold extendBody at step
  split at step <;> simp_all [sought]

theorem mem_sought_of_extend {place : InterfacePlace}
    (step : place.extend declared operations token = some extended) :
    token.terminal ∈ place.sought := by
  unfold extend at step
  split at step
  · exact mem_of_extendBody step
  all_goals try simp_all [sought, Documentation.followers, TypeReference.followers]
  have member := mem_of_extendBody step
  simp_all [sought]

end InterfacePlace

namespace ServicePlace

variable {declared : NamedHeading} {embeds implements : List TypeReference} {token : Token}
  {extended : Fragment}

theorem mem_of_extendBody (step : extendBody declared embeds implements token = some extended) :
    token.terminal ∈ beforeItem.sought := by
  unfold extendBody at step
  split at step <;> simp_all [sought]

theorem mem_sought_of_extend {place : ServicePlace}
    (step : place.extend declared embeds implements token = some extended) :
    token.terminal ∈ place.sought := by
  have followers : ∀ terminal ∈ beforeItem.sought, terminal ∈ TypeReference.followers := by decide
  unfold extend at step
  split at step
  · exact mem_of_extendBody step
  · simp_all [sought]
  · exact followers _ (mem_of_extendBody step)
  · simp_all [sought]
  · simp_all [sought, TypeReference.followers]
  · exact followers _ (mem_of_extendBody step)
  · cases step

end ServicePlace

namespace Fragment

variable {fragment : Fragment} {token : Token}

theorem mem_beginnings_of_begin? {begun : Fragment} (begins : begin? token = some begun) :
    token.terminal ∈ beginnings := by
  unfold begin? at begins
  split at begins <;> simp_all [beginnings]

theorem mem_sought_of_extend {extended : Fragment} (step : fragment.extend token = some extended) :
    token.terminal ∈ fragment.sought := by
  cases fragment with
  | importing importing =>
      rcases Option.map_eq_some_iff.mp step with ⟨next, importStep, _⟩
      exact ImportFragment.mem_sought_of_extend importStep
  | afterDocumentation documentation =>
      simp only [extend] at step
      split at step <;> simp_all [sought, Documentation.followers]
  | afterWord kind heading =>
      simp only [extend] at step
      split at step <;> simp_all [sought]
  | afterName kind declared =>
      simp only [extend] at step
      split at step <;> simp_all [sought]
  | afterColon declared =>
      simp only [extend] at step
      split at step <;> simp_all [sought]
  | synonym declared reference => cases step
  | inRecord record place => exact RecordPlace.mem_sought_of_extend step
  | inInterface declared operations place => exact InterfacePlace.mem_sought_of_extend step
  | inService declared embeds implements place => exact ServicePlace.mem_sought_of_extend step
  | ended declaration => cases step

theorem mem_sought_of_close? {statement : Statement} (closes : fragment.close? = some statement)
    {terminal : Terminal} (begins : terminal ∈ beginnings) : terminal ∈ fragment.sought := by
  cases fragment with
  | importing importing =>
      rcases Option.map_eq_some_iff.mp closes with ⟨importStatement, importCloses, _⟩
      exact ImportFragment.mem_sought_of_close? importCloses begins
  | synonym declared reference =>
      have followers : ∀ terminal ∈ beginnings, terminal ∈ TypeReference.followers := by decide
      exact followers terminal begins
  | ended declaration => exact begins
  | _ => cases closes

end Fragment

namespace Draft

variable {draft next : Draft} {token : Token}

theorem mem_sought_of_step (step : draft.step token = some next) :
    token.terminal ∈ draft.sought := by
  rcases step_cases step with ⟨fragment, extended, current, longer, _⟩ |
    ⟨current, begun, begins, _⟩ | ⟨fragment, statement, begun, current, _, closes, begins, _⟩
  · rw [sought, current]
    exact Fragment.mem_sought_of_extend longer
  · rw [sought, current]
    exact Fragment.mem_beginnings_of_begin? begins
  · rw [sought, current]
    exact Fragment.mem_sought_of_close? closes (Fragment.mem_beginnings_of_begin? begins)

/-- Paths are looked for alone, because a path could also be read as a name. -/
theorem sought_eq_or (draft : Draft) :
    draft.sought = [.importPath] ∨ .importPath ∉ draft.sought := by
  rcases draft with ⟨finished, _ | fragment⟩
  · simp [sought, Fragment.beginnings]
  · show fragment.sought = _ ∨ _ ∉ fragment.sought
    cases fragment with
    | importing fragment => cases fragment <;> simp [Fragment.sought, ImportFragment.sought]
    | afterName kind declared => cases kind <;> simp [Fragment.sought]
    | inRecord record place =>
        cases place <;> simp [Fragment.sought, RecordPlace.sought, Documentation.followers]
    | inInterface declared operations place =>
        cases place <;> simp [Fragment.sought, InterfacePlace.sought, Documentation.followers,
          TypeReference.followers]
    | inService declared embeds implements place =>
        cases place <;> simp [Fragment.sought, ServicePlace.sought, TypeReference.followers]
    | _ =>
        simp [Fragment.sought, Documentation.followers, TypeReference.followers,
          Fragment.beginnings]

end Draft

/-! ## Only the terminal of a token decides whether it is accepted -/

section

variable {token other : Token} (same : token.terminal = other.terminal)

include same

theorem Fragment.isSome_begin? : (begin? token).isSome = (begin? other).isSome := by
  rcases token with ⟨terminal, text, span⟩
  rcases other with ⟨_, otherText, otherSpan⟩
  cases same
  cases terminal <;> rfl

theorem ImportFragment.isSome_extend (fragment : ImportFragment) :
    (fragment.extend token).isSome = (fragment.extend other).isSome := by
  rcases token with ⟨terminal, text, span⟩
  rcases other with ⟨_, otherText, otherSpan⟩
  cases same
  cases fragment <;> cases terminal <;> rfl

theorem RecordPlace.isSome_extend (record : OpenRecord) (place : RecordPlace) :
    (place.extend record token).isSome = (place.extend record other).isSome := by
  rcases token with ⟨terminal, text, span⟩
  rcases other with ⟨_, otherText, otherSpan⟩
  cases same
  cases place <;> cases terminal <;> rfl

theorem InterfacePlace.isSome_extend (declared : NamedHeading) (operations : List Operation)
    (place : InterfacePlace) :
    (place.extend declared operations token).isSome =
      (place.extend declared operations other).isSome := by
  rcases token with ⟨terminal, text, span⟩
  rcases other with ⟨_, otherText, otherSpan⟩
  cases same
  cases place <;> cases terminal <;> rfl

theorem ServicePlace.isSome_extend (declared : NamedHeading)
    (embeds implements : List TypeReference) (place : ServicePlace) :
    (place.extend declared embeds implements token).isSome =
      (place.extend declared embeds implements other).isSome := by
  rcases token with ⟨terminal, text, span⟩
  rcases other with ⟨_, otherText, otherSpan⟩
  cases same
  cases place <;> cases terminal <;> rfl

theorem Fragment.isSome_extend (fragment : Fragment) :
    (fragment.extend token).isSome = (fragment.extend other).isSome := by
  cases fragment with
  | importing importing =>
      rw [extend, extend, Option.isSome_map, Option.isSome_map]
      exact importing.isSome_extend same
  | inRecord record place => exact place.isSome_extend same record
  | inInterface declared operations place => exact place.isSome_extend same declared operations
  | inService declared embeds implements place =>
      exact place.isSome_extend same declared embeds implements
  | afterName kind declared =>
      rcases token with ⟨terminal, text, span⟩
      rcases other with ⟨_, otherText, otherSpan⟩
      cases same
      cases kind <;> cases terminal <;> rfl
  | _ =>
      rcases token with ⟨terminal, text, span⟩
      rcases other with ⟨_, otherText, otherSpan⟩
      cases same
      cases terminal <;> rfl

theorem Draft.isSome_step (draft : Draft) :
    (draft.step token).isSome = (draft.step other).isSome := by
  rcases draft with ⟨finished, _ | fragment⟩
  · simp only [step, Option.isSome_map]
    exact Fragment.isSome_begin? same
  · have begins := Fragment.isSome_begin? same
    have goesOn := fragment.isSome_extend same
    simp only [step]
    cases here : fragment.extend token <;> cases there : fragment.extend other <;>
      rw [here, there] at goesOn
    · cases fragment.close? with
      | none => rfl
      | some statement =>
          simp only [Option.isSome_map]
          exact begins
    · cases goesOn
    · cases goesOn
    · rfl

end

namespace Draft

variable {draft next : Draft} {terminal : Terminal}

theorem exists_step_of_accepts (accepts : draft.accepts terminal = true) :
    ∃ next, draft.step (.sample terminal) = some next := by
  have same := @Draft.isSome_step (.sample terminal) ⟨terminal, [], default⟩ rfl draft
  exact Option.isSome_iff_exists.mp (same.trans accepts)

/-! ## Every draft can be completed -/

def Completes (draft : Draft) : Prop :=
  ∃ tokens last program, draft.Runs tokens last ∧ last.finish? = some program

theorem runs_sample (step : draft.step (.sample terminal) = some next) {tokens : List Token}
    {last : Draft} (runs : Runs next tokens last) : Runs draft (.sample terminal :: tokens) last :=
  .token (Token.isClear_sample (mem_sought_of_step step) draft.sought_eq_or) step runs

theorem Completes.of_step (terminal : Terminal)
    (step : draft.step (.sample terminal) = some next) (completes : next.Completes) :
    draft.Completes := by
  rcases completes with ⟨tokens, last, program, runs, finished⟩
  exact ⟨_, last, program, runs_sample step runs, finished⟩

variable {finished : List Statement}

theorem completes_of_close? {fragment : Fragment} {statement : Statement}
    (closes : fragment.close? = some statement) : Completes ⟨finished, some fragment⟩ :=
  ⟨[], _, ⟨finished ++ [statement]⟩, .done, by simp [finish?, closes]⟩

theorem completes_importing (fragment : ImportFragment) :
    Completes ⟨finished, some (.importing fragment)⟩ := by
  have beforeTarget : ∀ clause, Completes ⟨finished, some (.importing (.beforeTarget clause))⟩ :=
    fun clause => .of_step .name rfl (completes_of_close? rfl)
  have afterPath : ∀ start path span,
      Completes ⟨finished, some (.importing (.afterPath start path span))⟩ :=
    fun start path span => .of_step .importWord rfl (beforeTarget _)
  cases fragment with
  | afterFrom start => exact .of_step .importPath rfl (afterPath ..)
  | afterPath start path span => exact afterPath start path span
  | beforeTarget clause => exact beforeTarget clause
  | afterTarget clause last => exact completes_of_close? rfl
  | afterAs clause last => exact .of_step .name rfl (completes_of_close? rfl)
  | afterRenaming clause last => exact completes_of_close? rfl

/-- A brace for every open record. A record that closes is added to the one around it as the type
of a field, so that the induction is over a record that a field was just added to. -/
theorem completes_add (record : OpenRecord) (field : Field) :
    Completes ⟨finished, some (.inRecord (record.add field) .beforeField)⟩ := by
  induction record generalizing field with
  | ofDeclaration declared start fields =>
      exact .of_step .rightBrace rfl (completes_of_close? rfl)
  | ofField outer owner start fields induction => exact .of_step .rightBrace rfl (induction _)

theorem completes_beforeField (record : OpenRecord) :
    Completes ⟨finished, some (.inRecord record .beforeField)⟩ := by
  cases record with
  | ofDeclaration declared start fields =>
      exact .of_step .rightBrace rfl (completes_of_close? rfl)
  | ofField outer owner start fields => exact .of_step .rightBrace rfl (completes_add outer _)

theorem completes_inRecord (record : OpenRecord) (place : RecordPlace) :
    Completes ⟨finished, some (.inRecord record place)⟩ := by
  have afterColon : ∀ field, Completes ⟨finished, some (.inRecord record (.afterColon field))⟩ :=
    fun field => .of_step .name rfl (completes_beforeField _)
  have afterName : ∀ field, Completes ⟨finished, some (.inRecord record (.afterName field))⟩ :=
    fun field => .of_step .colon rfl (afterColon field)
  cases place with
  | beforeField => exact completes_beforeField record
  | afterDocumentation documentation => exact .of_step .name rfl (afterName _)
  | afterName field => exact afterName field
  | afterColon field => exact afterColon field

theorem completes_inInterface (declared : NamedHeading) (operations : List Operation)
    (place : InterfacePlace) :
    Completes ⟨finished, some (.inInterface declared operations place)⟩ := by
  have beforeOperation : ∀ operations,
      Completes ⟨finished, some (.inInterface declared operations .beforeOperation)⟩ :=
    fun operations => .of_step .rightBrace rfl (completes_of_close? rfl)
  have afterRequest : ∀ operation request stop,
      Completes ⟨finished,
        some (.inInterface declared operations (.afterRequest operation request stop))⟩ :=
    fun operation request stop => .of_step .rightBrace rfl (completes_of_close? rfl)
  have inRequest : ∀ operation,
      Completes ⟨finished, some (.inInterface declared operations (.inRequest operation))⟩ :=
    fun operation => .of_step .rightParenthesis rfl (afterRequest ..)
  have afterName : ∀ operation,
      Completes ⟨finished, some (.inInterface declared operations (.afterName operation))⟩ :=
    fun operation => .of_step .leftParenthesis rfl (inRequest operation)
  cases place with
  | beforeOperation => exact beforeOperation operations
  | afterDocumentation documentation => exact .of_step .name rfl (afterName _)
  | afterName operation => exact afterName operation
  | inRequest operation => exact inRequest operation
  | afterRequestType operation request =>
      exact .of_step .rightParenthesis rfl (afterRequest ..)
  | afterRequest operation request stop => exact afterRequest operation request stop
  | afterArrow operation request => exact .of_step .name rfl (beforeOperation _)

theorem completes_inService (declared : NamedHeading) (embeds implements : List TypeReference)
    (place : ServicePlace) :
    Completes ⟨finished, some (.inService declared embeds implements place)⟩ := by
  have afterItem : ∀ embeds implements place, place ∈ [ServicePlace.beforeItem, .afterEmbedded,
      .afterImplemented] →
      Completes ⟨finished, some (.inService declared embeds implements place)⟩ := by
    intro embeds implements place member
    cases place with
    | beforeItem | afterEmbedded | afterImplemented =>
        exact .of_step .rightBrace rfl (completes_of_close? rfl)
    | afterEmbeds | beforeImplemented => simp at member
  cases place with
  | beforeItem | afterEmbedded | afterImplemented => exact afterItem _ _ _ (by simp)
  | afterEmbeds => exact .of_step .name rfl (afterItem _ _ .afterEmbedded (by simp))
  | beforeImplemented => exact .of_step .name rfl (afterItem _ _ .afterImplemented (by simp))

theorem completes (draft : Draft) : draft.Completes := by
  rcases draft with ⟨finished, _ | fragment⟩
  · exact ⟨[], _, ⟨finished⟩, .done, rfl⟩
  · have afterColon : ∀ declared, Completes ⟨finished, some (.afterColon declared)⟩ :=
      fun declared => .of_step .name rfl (completes_of_close? rfl)
    have afterName : ∀ kind declared, Completes ⟨finished, some (.afterName kind declared)⟩ := by
      intro kind declared
      cases kind with
      | type => exact .of_step .colon rfl (afterColon declared)
      | interface => exact .of_step .leftBrace rfl (completes_inInterface ..)
      | service => exact .of_step .leftBrace rfl (completes_inService ..)
    have afterWord : ∀ kind heading, Completes ⟨finished, some (.afterWord kind heading)⟩ :=
      fun kind heading => .of_step .name rfl (afterName ..)
    cases fragment with
    | importing fragment => exact completes_importing fragment
    | afterDocumentation documentation => exact .of_step .typeWord rfl (afterWord ..)
    | afterWord kind heading => exact afterWord kind heading
    | afterName kind declared => exact afterName kind declared
    | afterColon declared => exact afterColon declared
    | synonym declared reference => exact completes_of_close? rfl
    | inRecord record place => exact completes_inRecord record place
    | inInterface declared operations place => exact completes_inInterface declared operations place
    | inService declared embeds implements place =>
        exact completes_inService declared embeds implements place
    | ended declaration => exact completes_of_close? rfl

end Draft

end ServiceModules
