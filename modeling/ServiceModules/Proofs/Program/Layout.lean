import Mathlib
import ServiceModules.Proofs.Draft.Insertion
import ServiceModules.Proofs.Draft.Relay
import ServiceModules.Proofs.Program.Shuffle
import ServiceModules.Proofs.Program.Spans
import ServiceModules.Proofs.Source.Moved

/-!
Layout. Blanks and comments may be put before any token of a program and at its end: the text is
accepted then with the same program, and what stands behind them has moved with the text. Only
where a text ends with the slashes of a comment, another slash would make them documentation.
-/

namespace ServiceModules

/-! ## Where blanks and comments may be put -/

namespace Program

def TokenBegins (before after : List Char) : Prop :=
  ∃ reading later : Reading, (Reading.start (before ++ after)).Reaches reading ∧
    reading.Takes later ∧ ∃ gap, reading.rest = gap ++ after ∧ Lexeme.gap reading.rest = gap

/-- Trivia may be put between the two parts of a text: before a token, or at the end. At the end
they must not make documentation of an empty comment that ends with the text. -/
inductive Admits (before trivia : List Char) : List Char → Prop
  | token {after : List Char} (begins : TokenBegins before after) : Admits before trivia after
  | ending (apart : ¬(Text.EndsInSlashes before ∧ trivia.head? = some '/')) :
      Admits before trivia []

end Program

/-! ## Moving the places back -/

open Position (movedBack)

theorem Retouch.carries_movedBack {origin target : Position} (order : origin.AtMost target) :
    (Retouch.moving (.uniform (movedBack origin target))).Carries target where
  quiet := fun _ => rfl
  uniform := rfl
  along := by
    intro characters
    show movedBack origin target (target.afterAll characters) =
      (movedBack origin target target).afterAll characters
    rw [Position.movedBack_of_behind order (Position.atMost_afterAll target characters),
      Position.movedBack_of_behind order (.refl _), Position.moved_afterAll,
      Position.moved_origin]

structure Token.IsOutside (origin target : Position) (token : Token) : Prop where
  proper : token.span.start.Before token.span.stop
  outside : token.span.stop.AtMost origin ∨ target.AtMost token.span.start

section

variable {origin target : Position}

theorem Span.Fits.moved_retouch {span : Span} (order : origin.AtMost target)
    (fits : span.Fits (Token.IsOutside origin target)) :
    (span.retouch (.moving (.uniform (movedBack origin target)))).moved origin target = span := by
  rcases fits with ⟨_, ⟨first, firstOutside, begins⟩, ⟨last, lastOutside, ends⟩⟩
  apply Span.moved_movedBack order
  · rw [← begins]
    exact firstOutside.outside.imp_left firstOutside.proper.trans_atMost
  · rw [← ends]
    exact lastOutside.outside.imp_right fun late => late.trans_before lastOutside.proper

theorem Node.Fits.spans {node : Node} (fits : node.Fits (Token.IsOutside origin target)) :
    ∀ span ∈ node.spans, span.Fits (Token.IsOutside origin target) := by
  intro span isIn
  rcases List.mem_append.mp isIn with own | ofPath
  · exact fits.span span (Option.mem_toList.mp own)
  · cases node with
    | ofImport statement =>
      cases List.mem_singleton.mp ofPath
      rcases fits.names.1 with ⟨token, isToken, _, placed⟩
      rw [placed]
      exact ⟨isToken.proper, ⟨token, isToken, rfl⟩, ⟨token, isToken, rfl⟩⟩
    | _ => cases ofPath

theorem Node.Fits.moved_spans {node : Node} (order : origin.AtMost target)
    (fits : node.Fits (Token.IsOutside origin target)) :
    (node.retouch (.moving (.uniform (movedBack origin target)))).spans.map
      (Span.moved origin target) = node.spans := by
  have fixed : ∀ span ∈ node.spans, (Span.moved origin target ∘
      Span.retouch (.moving (.uniform (movedBack origin target)))) span = id span :=
    fun span isIn => (fits.spans span isIn).moved_retouch order
  rw [Node.spans_retouch, List.map_map, List.map_congr_left fixed, List.map_id]

end

/-! ## Programs -/

namespace Program

/-- The other program is this one with everything behind `origin` moved on to `target`: it is the
same but for its places, and all spans have moved. -/
structure MovesTo (origin target : Position) (program moved : Program) : Prop where
  same : moved.withoutPlaces = program.withoutPlaces
  spans : moved.nodes.map Node.spans =
    program.nodes.map fun node => node.spans.map (Span.moved origin target)

theorem movesTo_of_allFit {origin target : Position} {moved : Program}
    (order : origin.AtMost target)
    (all : AllFit (Token.IsOutside origin target) moved.nodes) :
    MovesTo origin target (moved.retouch (.moving (.uniform (movedBack origin target)))) moved where
  same := (moved.withoutPlaces_retouch (.moving (.uniform (movedBack origin target)))).symm
  spans := by
    rw [nodes_retouch, List.map_map]
    exact List.map_congr_left fun node isIn => ((all node isIn).moved_spans order).symm

end Program

namespace Reading

variable {reading : Reading} {before trivia after blanks : List Char}

theorem Stands.allFit (stands : reading.Stands before trivia after blanks)
    (isTrivia : Lexeme.IsTrivia trivia) {origin target : Position}
    (isOrigin : Position.first.afterAll before = origin)
    (isTarget : Position.first.afterAll (before ++ trivia) = target) {moved : Program}
    (accepts : Accepts ⟨reading.draft, target, after⟩ moved) :
    AllFit (Token.IsOutside origin target) moved.nodes := by
  have early : reading.position.AtMost origin := isOrigin ▸ stands.atMost_position
  have order : origin.AtMost target := by
    rw [← isOrigin, ← isTarget]
    exact Position.afterAll_atMost_append _ before trivia
  have begun : (start (before ++ (trivia ++ after))).HasRead (before ++ (trivia ++ after)) [] :=
    ⟨rfl, rfl⟩
  have outsideBefore : ∀ token : Token,
      token.IsWithin (before ++ (trivia ++ after)) .first reading.position →
      token.IsOutside origin target :=
    fun token within => ⟨within.covers.proper, .inl (within.before.trans early)⟩
  have outsideBehind : ∀ (token : Token) (stop : Position),
      token.IsWithin (before ++ (trivia ++ after)) target stop → token.IsOutside origin target :=
    fun token stop within => ⟨within.covers.proper, .inr within.behind⟩
  rcases (stands.reaches_apart isTrivia).fits begun Draft.fits_empty (.refl _) outsideBefore with
    ⟨here, _, fits, hereEarly, _⟩
  have behind : HasRead ⟨reading.draft, target, after⟩ (before ++ (trivia ++ after))
      (before ++ trivia) := ⟨(List.append_assoc ..).symm, isTarget.symm⟩
  rcases accepts with ⟨last, reaches, _, finished⟩
  have hereBefore : here.AtMost target := hereEarly.trans (early.trans order)
  rcases reaches.fits behind fits hereBefore fun token => outsideBehind token _ with
    ⟨_, _, fitsLast, _⟩
  exact fitsLast.finish? finished

/-- Reading on behind what was put in gives the program with its places moved. -/
theorem Stands.exists_moved (stands : reading.Stands before trivia after blanks)
    (isTrivia : Lexeme.IsTrivia trivia) {program : Program}
    (accepts : (start (before ++ after)).Accepts program) :
    ∃ moved, (start (before ++ (trivia ++ after))).Accepts moved ∧
      AllFit (Token.IsOutside (Position.first.afterAll before)
        (Position.first.afterAll (before ++ trivia))) moved.nodes ∧
      moved.retouch (.moving (.uniform (movedBack (Position.first.afterAll before)
        (Position.first.afterAll (before ++ trivia))))) = program := by
  generalize isOrigin : Position.first.afterAll before = origin
  generalize isTarget : Position.first.afterAll (before ++ trivia) = target
  have order : origin.AtMost target := by
    rw [← isOrigin, ← isTarget]
    exact Position.afterAll_atMost_append _ before trivia
  have early : reading.position.AtMost origin := isOrigin ▸ stands.atMost_position
  have carries := Retouch.carries_movedBack order
  -- The draft was read before the place and keeps its own places.
  have kept : reading.draft.retouch (.moving (.uniform (movedBack origin target))) =
      reading.draft := by
    apply stands.reaches.retouch_draft carries.quiet carries.uniform _ rfl
    exact fun place earlier => Position.movedBack_of_atMost (earlier.trans early)
  have past : Accepts (Reading.retouch (.moving (.uniform (movedBack origin target)))
      ⟨reading.draft, target, after⟩) program := by
    have behind := accepts.behind stands.reaches
    rcases reading with ⟨draft, position, rest⟩
    cases stands.same
    have behind := behind.past_gap stands.gapped
    have place : movedBack origin target target = origin :=
      (Position.movedBack_of_behind order (.refl _)).trans Position.moved_origin
    have kept : draft.retouch (.moving (.uniform (movedBack origin target))) = draft := kept
    rw [stands.afterAll_position, isOrigin] at behind
    show Accepts ⟨draft.retouch _, movedBack origin target target, after⟩ program
    rw [kept, place]
    exact behind
  rcases past.of_retouch carries with ⟨moved, acceptsMoved, same⟩
  refine ⟨moved, stands.accepts_apart isTrivia (isTarget ▸ acceptsMoved), ?_, same⟩
  exact stands.allFit isTrivia isOrigin isTarget acceptsMoved

end Reading

namespace Program

theorem Admits.exists_stands {before trivia after : List Char} (admits : Admits before trivia after)
    (isTrivia : Lexeme.IsTrivia trivia) {program : Program}
    (accepts : (Reading.start (before ++ after)).Accepts program) :
    ∃ reading blanks, Reading.Stands reading before trivia after blanks := by
  cases admits with
  | token begins =>
    rcases begins with ⟨reading, later, reaches, takes, blanks, same, gapped⟩
    exact ⟨reading, blanks, takes.stands reaches same gapped isTrivia⟩
  | ending apart =>
    rw [List.append_nil] at accepts
    exact Reading.exists_stands_of_accepts accepts isTrivia apart

/-- Blanks and comments between two parts of a text, before a token or at the end, change nothing
but places: what stands behind them has moved by them. -/
theorem layout_does_not_matter {keepsDocumentation : Bool} {uri before trivia after : String}
    {program : Program} (read : ofText keepsDocumentation uri (before ++ after) = .ok program)
    (isTrivia : Lexeme.IsTrivia trivia.toList)
    (admits : Admits before.toList trivia.toList after.toList) :
    ∃ moved, ofText keepsDocumentation uri (before ++ trivia ++ after) = .ok moved ∧
      MovesTo (Position.first.afterAll before.toList)
        (Position.first.afterAll (before ++ trivia).toList) program moved := by
  rw [ofText_eq_parse] at read
  split at read
  · cases read
  · next parsedProgram parsed =>
    rw [parse_eq_ok_iff, String.toList_append] at parsed
    rcases admits.exists_stands isTrivia parsed with ⟨reading, blanks, stands⟩
    rcases stands.exists_moved isTrivia parsed with ⟨moved, accepts, all, same⟩
    have parsedMoved : parse (before ++ trivia ++ after) = .ok moved := by
      rw [parse_eq_ok_iff, String.toList_append, String.toList_append, List.append_assoc]
      exact accepts
    rw [ofText_eq_parse, parsedMoved, String.toList_append]
    have order := Position.first.afterAll_atMost_append before.toList trivia.toList
    subst same
    refine ⟨_, rfl, ?_⟩
    cases read
    cases keepsDocumentation with
    | true => exact movesTo_of_allFit order all
    | false =>
      simp only [Bool.false_eq_true, if_false]
      rw [withoutDocumentation_retouch]
      exact movesTo_of_allFit order all.withoutDocumentation

/-- A comment on a name that stood right behind its keyword. -/
theorem layout_does_not_matter_glued :
    ∃ program moved, ofText true "a" ("type" ++ "Foo:int") = .ok program ∧
      Lexeme.IsTrivia " // b\n\t".toList ∧
      Admits "type".toList " // b\n\t".toList "Foo:int".toList ∧
      ofText true "a" ("type" ++ " // b\n\t" ++ "Foo:int") = .ok moved ∧
      MovesTo ⟨1, 5⟩ ⟨2, 2⟩ program moved := by
  have isTrivia : Lexeme.IsTrivia " // b\n\t".toList :=
    .blank rfl (@Lexeme.IsTrivia.comment [' ', 'b'] ['\t'] (by decide) (by decide)
      (.blank rfl .nil))
  have keyword : (Reading.start "typeFoo:int".toList).Takes
      ⟨⟨[], some (.afterWord .type ⟨none, .first⟩)⟩, ⟨1, 5⟩, "Foo:int".toList⟩ :=
    @Reading.Takes.token .empty _ .first [] "Foo:int".toList ⟨.typeWord, "type".toList⟩
      (by decide) (by decide) rfl
  have name : Reading.Takes
      ⟨⟨[], some (.afterWord .type ⟨none, .first⟩)⟩, ⟨1, 5⟩, "Foo:int".toList⟩
      ⟨⟨[], some (.afterName .type ⟨⟨none, .first⟩, "Foo"⟩)⟩, ⟨1, 8⟩, ":int".toList⟩ :=
    @Reading.Takes.token _ _ ⟨1, 5⟩ [] ":int".toList ⟨.name, "Foo".toList⟩
      (by decide) (by decide) rfl
  have begins : TokenBegins "type".toList "Foo:int".toList :=
    ⟨_, _, .single keyword, name, [], rfl, by decide⟩
  have names : (ofText true "a" ("type" ++ "Foo:int")).map
      (fun program => program.declarations.map Declaration.name) = .ok ["Foo"] := by cbv
  cases accepted : ofText true "a" ("type" ++ "Foo:int") with
  | error fault =>
    rw [accepted] at names
    cases names
  | ok program =>
    rcases layout_does_not_matter accepted isTrivia (.token begins) with ⟨moved, read, moves⟩
    exact ⟨program, moved, rfl, isTrivia, .token begins, read, moves⟩

/-- A text may end with an empty comment, and with a comment put at its end it is rejected. -/
theorem exists_rejection_behind_slashes :
    (ofText true "a" ("type A: int //" ++ "")).map
        (fun program => program.declarations.map Declaration.name) = .ok ["A"] ∧
      Lexeme.IsTrivia "// c\n".toList ∧
      ∃ rejection, ofText true "a" ("type A: int //" ++ "// c\n" ++ "") =
        .error (.rejected "a" "type A: int //// c\n" rejection) := by
  refine ⟨by cbv, @Lexeme.IsTrivia.comment [' ', 'c'] [] (by decide) (by decide) .nil, ?_⟩
  exact ⟨.unexpectedEnd ⟨⟨1, 13⟩, ⟨1, 19⟩⟩
    ⟨false, [.docComment, .interfaceWord, .serviceWord, .typeWord]⟩, by cbv⟩

end Program

end ServiceModules
