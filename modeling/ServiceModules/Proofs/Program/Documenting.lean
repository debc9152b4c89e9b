import ServiceModules.Proofs.Draft.Likeness
import ServiceModules.Proofs.Draft.Members
import ServiceModules.Proofs.Draft.Replay
import ServiceModules.Proofs.Draft.Starts
import ServiceModules.Proofs.Draft.Undocumented
import ServiceModules.Proofs.Token.Clear

/-!
Documenting a member of a program that is written already. A documentation comment on a line of its
own, right before a field or an operation, changes nothing but the documentation of this member,
unless its name is a word that a declaration can begin with: behind documentation such a word is
read as a keyword, and the text is rejected.
-/

namespace ServiceModules

variable {line? : Position → Option String}
variable {place : Documentation → Fragment} {owner : NamedHeading → Fragment}

/-! ## Drafts in front of a member -/

namespace Draft

theorem sought_of_memberDocumentation? {draft : Draft} {documentation : Documentation}
    (isOpen : documentation ∈ draft.memberDocumentation?) :
    draft.sought = Documentation.followers := by
  rcases draft with ⟨finished, _ | fragment⟩
  · cases isOpen
  · cases fragment with
    | inRecord record place =>
        cases place with
        | afterDocumentation documentation => rfl
        | _ => cases isOpen
    | inInterface declared operations place =>
        cases place with
        | afterDocumentation documentation => rfl
        | _ => cases isOpen
    | _ => cases isOpen

namespace IsBeforeMember

variable {draft : Draft} {token : Token}

theorem docComment_mem_sought (before : draft.IsBeforeMember place owner) :
    .docComment ∈ draft.sought := by
  cases before <;> exact List.mem_cons_self ..

theorem step_docComment (before : draft.IsBeforeMember place owner)
    (commented : token.terminal = .docComment) :
    draft.step token = some ⟨draft.finished, some (place (.ofToken token))⟩ := by
  rcases token with ⟨terminal, text, span⟩
  cases commented
  cases before <;> rfl

theorem step_name (before : draft.IsBeforeMember place owner) (named : token.terminal = .name) :
    draft.step token =
      some ⟨draft.finished, some (owner ((Heading.plain token).named token))⟩ := by
  rcases token with ⟨terminal, text, span⟩
  cases named
  cases before <;> rfl

/-! Behind documentation. -/

theorem sought_place (before : draft.IsBeforeMember place owner) (documentation : Documentation) :
    sought ⟨draft.finished, some (place documentation)⟩ = Documentation.followers := by
  cases before <;> rfl

theorem place_step_docComment (before : draft.IsBeforeMember place owner)
    (documentation : Documentation) (commented : token.terminal = .docComment) :
    step ⟨draft.finished, some (place documentation)⟩ token =
      some ⟨draft.finished, some (place (documentation.add token))⟩ := by
  rcases token with ⟨terminal, text, span⟩
  cases commented
  cases before <;> rfl

theorem place_step_name (before : draft.IsBeforeMember place owner)
    (documentation : Documentation) (named : token.terminal = .name) :
    step ⟨draft.finished, some (place documentation)⟩ token =
      some ⟨draft.finished, some (owner ((Heading.documented documentation).named token))⟩ := by
  rcases token with ⟨terminal, text, span⟩
  cases named
  cases before <;> rfl

theorem place_step_word (before : draft.IsBeforeMember place owner)
    (documentation : Documentation) {kind : DeclarationKind}
    (word : token.terminal = kind.terminal) :
    step ⟨draft.finished, some (place documentation)⟩ token = none := by
  rcases token with ⟨terminal, text, span⟩
  cases word
  cases before <;> cases kind <;> rfl

theorem like_place (before : draft.IsBeforeMember place owner) (like : IsLike line? draft draft)
    {documentation other : Documentation}
    (same : documentation.retouch (.levelling line?) = other.retouch .erasing) :
    IsLike line? ⟨draft.finished, some (place documentation)⟩
      ⟨draft.finished, some (place other)⟩ := by
  cases before <;>
    simp_all [IsLike, Draft.retouch, Fragment.retouch, RecordPlace.retouch, InterfacePlace.retouch,
      NamedHeading.retouch_operation]

theorem like_owner (before : draft.IsBeforeMember place owner) (like : IsLike line? draft draft)
    {heading other : NamedHeading}
    (same : heading.retouch (.levelling line?) = other.retouch .erasing) :
    IsLike line? ⟨draft.finished, some (owner heading)⟩ ⟨draft.finished, some (owner other)⟩ := by
  cases before <;>
    simp_all [IsLike, Draft.retouch, Fragment.retouch, RecordPlace.retouch, InterfacePlace.retouch,
      NamedHeading.retouch_operation]

end IsBeforeMember

end Draft

/-! ## Where a member begins -/

namespace Reading

/-- The reading stands in front of a member. Behind a gap it finds the first token of the member,
which begins at `start`. -/
structure Faces (reading : Reading) (start : Position) (gap : List Char) (found : Lexeme.Found)
    (rest : List Char) : Prop where
  before : ∃ place owner, reading.draft.IsBeforeMember place owner
  same : reading.rest = gap ++ (found.text ++ rest)
  begins : start = reading.position.afterAll gap
  gapped : Lexeme.gap (gap ++ (found.text ++ rest)) = gap
  scanned : Lexeme.scan reading.draft.sought (found.text ++ rest) = some found

variable {characters : List Char} {reading : Reading}

theorem Reaches.exists_faces_of_documentation (reaches : (start characters).Reaches reading)
    {documentation : Documentation} (isOpen : documentation ∈ reading.draft.memberDocumentation?) :
    ∃ earlier gap found rest, (start characters).Reaches earlier ∧
      earlier.Faces documentation.start gap found rest ∧ found.terminal = .docComment := by
  induction reaches generalizing documentation with
  | refl => cases isOpen
  | tail reachesBetween takes induction =>
      cases takes with
      | token gapped scanned stepped =>
          rcases Draft.memberDocumentation?_step stepped isOpen with
            ⟨first, firstOpen, same⟩ | ⟨before, commented, begins⟩
          · rw [← same]
            exact induction firstOpen
          · exact ⟨_, _, _, _, reachesBetween, ⟨before, rfl, begins, gapped, scanned⟩, commented⟩

theorem Reaches.exists_faces (reaches : (start characters).Reaches reading) {member : Member}
    (isMember : member ∈ reading.draft.members) :
    ∃ earlier gap found rest, (start characters).Reaches earlier ∧
      earlier.Faces member.start gap found rest ∧
      (found.terminal = .name ∧ String.ofList found.text = member.name ∨
        found.terminal = .docComment ∧ member.name ∉ DeclarationKind.words) := by
  induction reaches with
  | refl => cases isMember
  | tail reachesBetween takes induction =>
      cases takes with
      | token gapped scanned stepped =>
          rcases Draft.members_step stepped isMember with old | names
          · exact induction old
          · cases names with
            | plain before named =>
                exact ⟨_, _, _, _, reachesBetween, ⟨⟨_, _, before⟩, rfl, rfl, gapped, scanned⟩,
                  .inl ⟨named, rfl⟩⟩
            | documented isOpen named =>
                rcases Reaches.exists_faces_of_documentation reachesBetween isOpen with
                  ⟨earlier, gap, found, rest, reachesEarlier, faces, commented⟩
                refine ⟨earlier, gap, found, rest, reachesEarlier, faces, .inr ⟨commented, ?_⟩⟩
                have free := (Lexeme.name?_of_scan scanned named).2
                rw [Draft.sought_of_memberDocumentation? isOpen] at free
                rw [DeclarationKind.not_mem_words_iff, Token.string, String.toList_ofList]
                exact free

theorem Faces.exists_split {begin : Position} {gap rest : List Char} {found : Lexeme.Found}
    (faces : reading.Faces begin gap found rest) (reaches : (start characters).Reaches reading) :
    ∃ before, characters = before ++ (found.text ++ rest) ∧
      begin = Position.first.afterAll before ∧
      ∀ ending, (start (before ++ '\n' :: ending)).Reaches (reading.before gap ending) := by
  rcases reaches.exists_between with ⟨between, whole, position⟩
  have split : characters = between ++ gap ++ (found.text ++ rest) := by
    rw [List.append_assoc, ← faces.same]
    exact whole
  refine ⟨between ++ gap, split, ?_, fun ending => ?_⟩
  · rw [faces.begins, position, Position.afterAll_append]
    rfl
  · rcases reaches.before faces.same ending with ⟨front, sameFront, reachesAgain⟩
    have isFront : between ++ gap ++ (found.text ++ rest) = front ++ (found.text ++ rest) :=
      split.symm.trans sameFront
    rw [List.append_cancel_right_eq] at isFront
    rw [isFront]
    exact reachesAgain

end Reading

/-! ## With a comment before the member -/

def Documentation.comment (behind : List Char) : List Char := '/' :: '/' :: '/' :: behind

namespace Reading

open Documentation (comment lineOf)

variable {reading : Reading} {begin : Position} {gap rest line : List Char}
variable {found : Lexeme.Found} {program : Program}

theorem Faces.takes_comment (faces : reading.Faces begin gap found rest)
    (before : reading.draft.IsBeforeMember place owner) (single : '\n' ∉ line) :
    ∃ documentation stop, documentation.lines = [lineOf (comment line)] ∧
      (reading.before gap (comment line ++ '\n' :: (found.text ++ rest))).Takes
        ⟨⟨reading.draft.finished, some (place documentation)⟩, stop,
          '\n' :: (found.text ++ rest)⟩ := by
  have commented : Lexeme.docComment? (comment line) = some (comment line) :=
    Lexeme.docComment?_of_single single
  have alone : Lexeme.scan reading.draft.sought (comment line) = some ⟨.docComment, comment line⟩ :=
    Lexeme.scan_of_docComment? before.docComment_mem_sought commented
  have scanned : Lexeme.scan reading.draft.sought (comment line ++ '\n' :: (found.text ++ rest)) =
      some ⟨.docComment, comment line⟩ := by
    have written : comment line ≠ [] := List.cons_ne_nil _ _
    rw [Lexeme.scan_append_blank written rfl (.inl rfl), alone]
  have gapped : Lexeme.gap (gap ++ ['\n'] ++ (comment line ++ '\n' :: (found.text ++ rest))) =
      gap ++ ['\n'] := by
    have nothing := Lexeme.gap_of_docComment? commented ('\n' :: (found.text ++ rest))
    rw [Lexeme.gap] at nothing
    rw [List.append_assoc, Lexeme.gap,
      Lexeme.gapFrom_append (Lexeme.append_ne_nil_of_scan faces.scanned) faces.gapped,
      List.singleton_append, Lexeme.gapFrom_false_cons_of_isBlank rfl, nothing]
  have takes := @Takes.token _ _ reading.position _ _ ⟨.docComment, comment line⟩ gapped scanned
    (before.step_docComment rfl)
  rw [List.append_assoc] at takes
  exact ⟨_, _, rfl, takes⟩

theorem gap_newline {sought : List Terminal} (scanned : Lexeme.scan sought rest = some found) :
    Lexeme.gap ('\n' :: rest) = ['\n'] := by
  have nothing := Lexeme.gap_of_scan scanned []
  rw [List.append_nil, Lexeme.gap] at nothing
  rw [Lexeme.gap, Lexeme.gapFrom_false_cons_of_isBlank rfl, nothing]

end Reading

/-! What begins where the line belongs, with the line put in later or read before. -/

section

variable {token other : Token} {line : String} {documentation : Documentation}

theorem Heading.retouch_plain_of_line (isLine : line? token.span.start = some line)
    (lines : documentation.lines = [line.toList]) :
    (plain token).retouch (.levelling line?) = (documented documentation).retouch .erasing := by
  have text : documentation.text = line := by
    rw [Documentation.text, lines, List.intercalate_singleton, String.ofList_toList]
  have here : (Retouch.levelling line?).line? token.span.start = some line := isLine
  have added : (Retouch.levelling line?).documentation token.span.start none = some line := by
    rw [Retouch.documentation, here]
    rfl
  rw [Heading.retouch, Heading.retouch, plain, documented_kept, added, text]
  rfl

theorem Documentation.retouch_ofToken_of_line (isLine : line? token.span.start = some line)
    (lines : documentation.lines = [line.toList]) (sameText : other.text = token.text) :
    (ofToken token).retouch (.levelling line?) = (documentation.add other).retouch .erasing := by
  have here : (Retouch.levelling line?).line? (ofToken token).start = some line := isLine
  rw [Documentation.retouch, Documentation.retouch, here, add, lines, sameText]
  rfl

end

namespace Reading

open Documentation (comment lineOf)

variable {reading : Reading} {begin : Position} {gap rest line : List Char}
variable {found : Lexeme.Found} {program : Program}

theorem exists_takes_like {draft : Draft} (before : draft.IsBeforeMember place owner)
    (like : Draft.IsLike line? draft draft)
    (scanned : Lexeme.scan draft.sought (found.text ++ rest) = some found)
    (fits : found.terminal = .name ∧ String.ofList found.text ∉ DeclarationKind.words ∨
      found.terminal = .docComment)
    {start : Position} {line : String} (isLine : line? start = some line)
    {documentation : Documentation} (lines : documentation.lines = [line.toList])
    (stop : Position) :
    ∃ next other otherStop,
      draft.step ⟨found.terminal, found.text, .ofText start found.text⟩ = some next ∧
      Takes ⟨⟨draft.finished, some (place documentation)⟩, stop, '\n' :: (found.text ++ rest)⟩
        ⟨other, otherStop, rest⟩ ∧
      Draft.IsLike line? next other := by
  have gapped := gap_newline scanned
  rcases found with ⟨terminal, text⟩
  rcases fits with ⟨rfl, free⟩ | rfl
  -- Behind documentation the words for declarations are looked for, too, so that the name
  -- has to be none of them.
  · have named := (Lexeme.name?_of_scan scanned rfl).1
    have scannedBehind := @Lexeme.scan_of_name? Documentation.followers _ _ (by decide) named
    rw [DeclarationKind.not_mem_words_iff, String.toList_ofList] at free
    rw [Terminal.classify_name_of_free free, ← before.sought_place documentation] at scannedBehind
    have takes := @Takes.token _ _ stop ['\n'] rest ⟨.name, text⟩ gapped scannedBehind
      (before.place_step_name documentation rfl)
    refine ⟨_, _, _, before.step_name rfl, takes, ?_⟩
    apply before.like_owner like
    rw [Heading.retouch_named, Heading.retouch_plain_of_line isLine lines]
    rfl
  · have commented := Lexeme.docComment?_of_scan scanned rfl
    have scannedBehind :=
      @Lexeme.scan_of_docComment? Documentation.followers _ _ (by decide) commented
    rw [← before.sought_place documentation] at scannedBehind
    have takes := @Takes.token _ _ stop ['\n'] rest ⟨.docComment, text⟩ gapped scannedBehind
      (before.place_step_docComment documentation rfl)
    refine ⟨_, _, _, before.step_docComment rfl, takes, ?_⟩
    apply before.like_place like
    exact Documentation.retouch_ofToken_of_line isLine lines rfl

/-- A text that is accepted from in front of a member is accepted with a comment before this
member, which becomes the first line of its documentation. -/
theorem Accepts.documenting (accepts : reading.Accepts program) (settled : reading.IsSettled)
    (faces : reading.Faces begin gap found rest)
    (fits : found.terminal = .name ∧ String.ofList found.text ∉ DeclarationKind.words ∨
      found.terminal = .docComment) (single : '\n' ∉ line) :
    ∃ documented,
      (reading.before gap (comment line ++ '\n' :: (found.text ++ rest))).Accepts documented ∧
      documented.withoutPlaces =
        (program.documenting begin (String.ofList (lineOf (comment line)))).withoutPlaces := by
  have elsewhere {place : Position} (other : place ≠ begin) := Retouch.line?_documenting_of_ne other
    (String.ofList (lineOf (comment line)))
  rcases faces.before with ⟨place, owner, before⟩
  rcases faces.takes_comment before single with ⟨documentation, stop, lines, takesComment⟩
  rcases reading with ⟨draft, position, _⟩
  rcases faces with ⟨_, same, rfl, gapped, scanned⟩
  cases same
  have atMost := Position.atMost_afterAll position gap
  have fresh := Position.before_afterAll (position.afterAll gap) (Lexeme.length_pos_of_scan scanned)
  -- What was read before the member began has no place that the new line would go to.
  have like := settled.early _ fun place earlier => elsewhere (earlier.trans_atMost atMost).ne
  rcases exists_takes_like before like scanned fits (Retouch.line?_documenting_self _ _)
    (lines.trans (by rw [String.toList_ofList])) stop with
    ⟨next, other, otherStop, stepped, takesMember, likeNext⟩
  have takes : Takes _ _ := .token gapped scanned stepped
  rcases @Accepts.like _ _ ⟨other, otherStop, rest⟩ _ (accepts.behind (.single takes)) likeNext rfl
    (fun place later => elsewhere (fresh.trans_atMost later).ne.symm) takes.lines_ne_nil with
    ⟨documented, ⟨last, reaches, ends⟩, sameProgram⟩
  refine ⟨documented, ⟨last, .head takesComment (.head takesMember reaches), ends⟩, ?_⟩
  rw [Program.documenting, Program.withoutPlaces_retouch]
  exact sameProgram

/-- With a comment before a member whose name is a word for a declaration, the text is rejected. -/
theorem Faces.exists_rejection (faces : reading.Faces begin gap found rest)
    (named : found.terminal = .name) (word : String.ofList found.text ∈ DeclarationKind.words)
    (single : '\n' ∉ line) (last : Span) :
    ∃ rejection,
      (reading.before gap (comment line ++ '\n' :: (found.text ++ rest))).outcome
        last = .error rejection := by
  rcases faces.before with ⟨place, owner, before⟩
  rcases faces.takes_comment before single with ⟨documentation, stop, _, takesComment⟩
  rcases takesComment.outcome_eq last with ⟨lastLater, sameOutcome⟩
  rcases DeclarationKind.mem_words_iff.mp word with ⟨kind, isKind⟩
  have spelled : kind.terminal.spelling? = some found.text := by
    rw [kind.spelling?_terminal, isKind, String.toList_ofList]
  have scanned : Lexeme.scan (Draft.sought ⟨reading.draft.finished, some (place documentation)⟩)
      (found.text ++ rest) = some ⟨kind.terminal, found.text⟩ := by
    rw [before.sought_place documentation,
      Lexeme.scan_of_name? (by decide) (Lexeme.name?_of_scan faces.scanned named).1,
      Terminal.classify_name_of_mem kind.terminal_mem_followers spelled]
  have rejected := @outcome_of_found _ stop ['\n'] rest ⟨kind.terminal, found.text⟩
    (gap_newline faces.scanned) scanned lastLater true
  rw [before.place_step_word documentation rfl] at rejected
  exact ⟨_, sameOutcome.trans rejected⟩

end Reading

/-! ## Programs -/

def Documentation.lineOfComment (comment : String) : String :=
  String.ofList (lineOf (Documentation.comment comment.toList))

namespace Program

/-- The text with a documentation comment on a line of its own between its two parts. -/
def commented (before comment after : String) : String :=
  before ++ "\n///" ++ comment ++ "\n" ++ after

theorem toList_commented (before comment after : String) :
    (commented before comment after).toList =
      before.toList ++
        '\n' :: (Documentation.comment comment.toList ++ '\n' :: after.toList) := by
  simp [commented, Documentation.comment]

theorem parse_commented {text : String} {program : Program} (parsed : parse text = .ok program)
    {member : Member} (isMember : member ∈ program.members) :
    ∃ before after, text = before ++ after ∧
      member.start = Position.first.afterAll before.toList ∧
      ∀ comment : String, '\n' ∉ comment.toList →
        (member.name ∈ DeclarationKind.words →
          ∃ rejection, parse (commented before comment after) = .error rejection) ∧
        (member.name ∉ DeclarationKind.words →
          ∃ documented, parse (commented before comment after) = .ok documented ∧
            documented.withoutPlaces =
              (program.documenting member.start
                (Documentation.lineOfComment comment)).withoutPlaces) := by
  rcases parse_eq_ok_iff.mp parsed with ⟨last, reaches, ends⟩
  rw [Draft.members_finish? ends.2] at isMember
  rcases reaches.exists_faces isMember with
    ⟨reading, gap, found, rest, reachesReading, faces, alternatives⟩
  rcases faces.exists_split reachesReading with ⟨before, split, begins, reachesAgain⟩
  refine ⟨String.ofList before, String.ofList (found.text ++ rest), ?_, ?_, ?_⟩
  · rw [← String.ofList_append, ← split, String.ofList_toList]
  · rw [String.toList_ofList, begins]
  intro comment single
  -- The reading that stands in front of the member stands there whatever follows.
  have commentedText := toList_commented (String.ofList before) comment
    (String.ofList (found.text ++ rest))
  rw [String.toList_ofList, String.toList_ofList] at commentedText
  have reachesHere :=
    reachesAgain (Documentation.comment comment.toList ++ '\n' :: (found.text ++ rest))
  constructor
  · intro word
    rcases alternatives with ⟨named, isName⟩ | ⟨_, noWord⟩
    · rw [← isName] at word
      rcases reachesHere.outcome_eq noToken with ⟨lastReading, same⟩
      rcases faces.exists_rejection named word single lastReading with ⟨rejection, rejected⟩
      rw [← commentedText] at same
      exact ⟨rejection, same.trans rejected⟩
    · exact absurd word noWord
  · intro noWord
    have fits : found.terminal = .name ∧ String.ofList found.text ∉ DeclarationKind.words ∨
        found.terminal = .docComment := by
      rcases alternatives with ⟨named, isName⟩ | ⟨commented, _⟩
      · exact .inl ⟨named, by rw [isName]; exact noWord⟩
      · exact .inr commented
    have accepted : reading.Accepts program :=
      Reading.Accepts.behind ⟨last, reaches, ends⟩ reachesReading
    have settled := (Reading.IsSettled.start _).run reachesReading
    rcases accepted.documenting settled faces fits single with
      ⟨documented, ⟨lastAgain, reachesLast, endsAgain⟩, same⟩
    refine ⟨documented, ?_, same⟩
    rw [parse_eq_ok_iff, commentedText]
    exact ⟨lastAgain, reachesHere.trans reachesLast, endsAgain⟩

theorem withoutDocumentation_of_documenting {program documented : Program} {start : Position}
    {line : String}
    (same : documented.withoutPlaces = (program.documenting start line).withoutPlaces) :
    documented.withoutDocumentation.withoutPlaces =
      program.withoutDocumentation.withoutPlaces := by
  have erased := congrArg withoutDocumentation same
  rw [withoutPlaces, withoutPlaces, documenting, withoutDocumentation_retouch,
    withoutDocumentation_retouch, withoutDocumentation_retouch] at erased
  exact erased.trans (withoutPlaces_retouch _ _)

/-- A program is split where one of its members begins, and nothing else that can be documented
begins there. A comment put there changes the documentation of this member and nothing else, where
documentation is kept, unless the name of the member is a word for a declaration: then the text is
rejected. -/
theorem ofText_commented {keepsDocumentation : Bool} {uri text : String} {program : Program}
    (accepted : ofText keepsDocumentation uri text = .ok program) {member : Member}
    (isMember : member ∈ program.members) :
    ∃ before after, text = before ++ after ∧
      member.start = Position.first.afterAll before.toList ∧
      program.starts.count member.start = 1 ∧
      ∀ comment : String, '\n' ∉ comment.toList →
        (member.name ∈ DeclarationKind.words → ∃ rejection,
          ofText keepsDocumentation uri (commented before comment after) =
            .error (.rejected uri (commented before comment after) rejection)) ∧
        (member.name ∉ DeclarationKind.words → ∃ documented,
          ofText keepsDocumentation uri (commented before comment after) = .ok documented ∧
            documented.withoutPlaces =
              (if keepsDocumentation
                then program.documenting member.start (Documentation.lineOfComment comment)
                else program).withoutPlaces) := by
  rw [ofText_eq_parse] at accepted
  cases parsed : parse text with
  | error rejection =>
      rw [parsed] at accepted
      cases accepted
  | ok written =>
      rw [parsed] at accepted
      -- Dropping documentation moves no member and loses none.
      have sameMembers : program.members = written.members := by
        cases accepted
        cases keepsDocumentation with
        | true => rfl
        | false => exact written.members_withoutDocumentation
      have sameStarts : program.starts = written.starts := by
        cases accepted
        cases keepsDocumentation with
        | true => rfl
        | false => exact written.starts_withoutDocumentation
      rw [sameMembers] at isMember
      rcases parse_commented parsed isMember with ⟨before, after, split, begins, behaviour⟩
      refine ⟨before, after, split, begins, ?_, fun comment single => ?_⟩
      · rw [sameStarts]
        exact count_start_of_parse parsed isMember
      rcases behaviour comment single with ⟨rejects, documents⟩
      constructor
      · intro word
        rcases rejects word with ⟨rejection, rejected⟩
        exact ⟨rejection, by rw [ofText_eq_parse, rejected]⟩
      · intro noWord
        rcases documents noWord with ⟨documented, parsedAgain, same⟩
        refine ⟨_, by rw [ofText_eq_parse, parsedAgain], ?_⟩
        cases accepted
        cases keepsDocumentation with
        | true => exact same
        | false => exact withoutDocumentation_of_documenting same

/-- A field of a record in a record, whose name is a keyword elsewhere. -/
theorem ofText_commented_nested :
    ∃ program, ofText true "a" "type A: \x7b b: \x7b from: int \x7d \x7d" = .ok program ∧
      ⟨⟨1, 16⟩, "from"⟩ ∈ program.members ∧
      ∃ before after documented,
        "type A: \x7b b: \x7b from: int \x7d \x7d" = before ++ after ∧
        ⟨1, 16⟩ = Position.first.afterAll before.toList ∧
        program.starts.count ⟨1, 16⟩ = 1 ∧
        ofText true "a" (commented before " Where" after) = .ok documented ∧
        documented.withoutPlaces =
          (program.documenting ⟨1, 16⟩ (Documentation.lineOfComment " Where")).withoutPlaces := by
  have members : (ofText true "a" "type A: \x7b b: \x7b from: int \x7d \x7d").map
      Program.members = .ok [⟨⟨1, 11⟩, "b"⟩, ⟨⟨1, 16⟩, "from"⟩] := by cbv
  cases accepted : ofText true "a" "type A: \x7b b: \x7b from: int \x7d \x7d" with
  | error fault =>
      rw [accepted] at members
      cases members
  | ok program =>
      rw [accepted] at members
      have isMember : ⟨⟨1, 16⟩, "from"⟩ ∈ program.members := by
        rw [Except.ok.inj members]
        decide
      rcases ofText_commented accepted isMember with
        ⟨before, after, split, begins, alone, behaviour⟩
      rcases (behaviour " Where" (by decide)).2 (by decide) with ⟨documented, read, same⟩
      exact ⟨program, rfl, isMember, before, after, documented, split, begins, alone, read, same⟩

/-- A field may be called `type`, and with a comment before it the text is rejected. -/
theorem exists_rejection_of_commented_type :
    (ofText true "a" ("type A: \x7b" ++ "type: int \x7d")).map Program.members =
        .ok [⟨Position.first.afterAll "type A: \x7b".toList, "type"⟩] ∧
      ∃ rejection, ofText true "a" (commented "type A: \x7b" " doc" "type: int \x7d") =
        .error (.rejected "a" "type A: \x7b\n/// doc\ntype: int \x7d" rejection) := by
  refine ⟨by cbv, ?_⟩
  exact ⟨.unexpectedToken ['t', 'y', 'p', 'e'] ⟨⟨3, 1⟩, ⟨3, 5⟩⟩ ⟨false, [.name]⟩, by cbv⟩

end Program

end ServiceModules
