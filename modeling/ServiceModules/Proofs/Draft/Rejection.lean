import ServiceModules.Proofs.Draft.Completion
import ServiceModules.Proofs.Draft.Excerpts
import ServiceModules.Proofs.Draft.Replay
import ServiceModules.Proofs.Token.Trivia

/-!
Rejections as ends of readings. A text is rejected where a reading has come to and cannot go on:
the text before this place leads to the same draft when nothing stands behind it, and it leads on
to a program when the right tokens do.
-/

namespace ServiceModules

namespace Reading

variable {reading later : Reading} {kept tail : List Char}

theorem Accepts.behind_gap {draft : Draft} {position : Position} {blanks rest : List Char}
    {program : Program} (accepts : Accepts ⟨draft, position.afterAll blanks, rest⟩ program)
    (gapped : Lexeme.gap (blanks ++ rest) = blanks ++ Lexeme.gap rest) :
    Accepts ⟨draft, position, blanks ++ rest⟩ program := by
  rcases accepts with ⟨last, reaches, nothing, finished⟩
  rcases reaches.cases_head with rfl | ⟨next, takes, reachesOn⟩
  · refine ⟨_, .refl, ?_, finished⟩
    have nothing : Lexeme.gap rest = rest := nothing
    rw [gapped, nothing]
  · refine ⟨last, ?_, nothing, finished⟩
    cases takes with
    | @token _ nextDraft _ gap tail found gappedBehind scanned stepped =>
        rw [gappedBehind, ← List.append_assoc] at gapped
        rw [← Position.afterAll_append position blanks gap] at stepped reachesOn
        rw [← List.append_assoc]
        exact .head (.token gapped scanned stepped) reachesOn

end Reading

/-! ## Texts that lead to a draft -/

def Program.Begins (front : List Char) : Prop :=
  ∃ more program, Program.parse (String.ofList (front ++ more)) = .ok program

/-- In the text of these three parts, the second one is taken as a token of the terminal. -/
def Program.Reads (terminal : Terminal) (before lexeme after : List Char) : Prop :=
  ∃ reading later : Reading, (Reading.start (before ++ (lexeme ++ after))).Reaches reading ∧
    reading.Takes later ∧ ∃ gap, reading.rest = gap ++ (lexeme ++ after) ∧
      Lexeme.gap reading.rest = gap ∧
      Lexeme.scan reading.draft.sought (lexeme ++ after) = some ⟨terminal, lexeme⟩

namespace Draft

/-- The whole text leads to the draft, but for a gap at its end. -/
def IsOf (draft : Draft) (front : List Char) : Prop :=
  ∃ position blanks, (Reading.start front).Reaches ⟨draft, position, blanks⟩ ∧
    Lexeme.gap blanks = blanks

variable {draft : Draft} {front : List Char}

theorem IsOf.parse (isOf : draft.IsOf front) {program : Program}
    (finished : draft.finish? = some program) :
    Program.parse (String.ofList front) = .ok program := by
  rcases isOf with ⟨position, blanks, reaches, gapped⟩
  rw [Program.parse_eq_ok_iff, String.toList_ofList]
  exact ⟨_, reaches, gapped, finished⟩

theorem Runs.exists_accepts {tokens : List Token} {last : Draft} (runs : draft.Runs tokens last)
    {program : Program} (finished : last.finish? = some program) (position : Position) :
    ∃ accepted, Reading.Accepts ⟨draft, position, Token.layout tokens⟩ accepted := by
  rcases @Runs.reaches _ _ _ runs ⟨draft, position, Token.layout tokens⟩ [] rfl (by simp) rfl with
    ⟨later, reaches, like, nothing⟩
  rcases like.finish? finished with ⟨accepted, finishedLater, _⟩
  exact ⟨accepted, later, reaches, nothing, finishedLater⟩

theorem IsOf.reaches_newline (isOf : draft.IsOf front) (ending : List Char) :
    ∃ position blanks, (Reading.start (front ++ '\n' :: ending)).Reaches
        ⟨draft, position, blanks ++ ending⟩ ∧
      Lexeme.gap (blanks ++ ending) = blanks ++ Lexeme.gap ending := by
  rcases isOf with ⟨position, blanks, reaches, gapped⟩
  rcases @Reading.Reaches.before _ _ blanks [] reaches (List.append_nil blanks).symm
    ending with ⟨same, whole, reachesAgain⟩
  rw [List.append_nil] at whole
  have whole : front = same := whole
  subst whole
  refine ⟨position, blanks ++ ['\n'], ?_, ?_⟩
  · rw [List.append_assoc]
    exact reachesAgain
  · rw [List.append_assoc, List.append_assoc]
    exact Lexeme.gapFrom_newline gapped ending

theorem IsOf.parse_runs (isOf : draft.IsOf front) {tokens : List Token} {last : Draft}
    (runs : draft.Runs tokens last) {program : Program} (finished : last.finish? = some program) :
    ∃ parsed, Program.parse (String.ofList (front ++ '\n' :: Token.layout tokens)) =
      .ok parsed := by
  rcases isOf.reaches_newline (Token.layout tokens) with ⟨position, blanks, reaches, gapped⟩
  rcases runs.exists_accepts finished (position.afterAll blanks) with ⟨parsed, accepts⟩
  rcases accepts.behind_gap gapped with ⟨final, reachesFinal, ends⟩
  refine ⟨parsed, ?_⟩
  rw [Program.parse_eq_ok_iff, String.toList_ofList]
  exact ⟨final, reaches.trans reachesFinal, ends⟩

theorem IsOf.reads (isOf : draft.IsOf front) {terminal : Terminal} {lexeme behind : List Char}
    (scanned : Lexeme.scan draft.sought (lexeme ++ behind) = some ⟨terminal, lexeme⟩)
    (accepts : draft.accepts terminal = true) :
    Program.Reads terminal (front ++ ['\n']) lexeme behind := by
  rcases isOf.reaches_newline (lexeme ++ behind) with ⟨position, blanks, reaches, gapped⟩
  have nothing := Lexeme.gap_of_scan scanned []
  rw [List.append_nil] at nothing
  rw [nothing, List.append_nil] at gapped
  have stepped : (draft.step ⟨terminal, lexeme,
      .ofText (position.afterAll blanks) lexeme⟩).isSome = true :=
    (@Draft.isSome_step ⟨terminal, lexeme, _⟩ ⟨terminal, [], default⟩ rfl draft).trans accepts
  rcases Option.isSome_iff_exists.mp stepped with ⟨next, stepped⟩
  refine ⟨_, _, ?_, @Reading.Takes.token _ _ position blanks behind ⟨terminal, lexeme⟩ gapped
    scanned stepped, blanks, rfl, gapped, scanned⟩
  rw [List.append_assoc]
  exact reaches

theorem IsOf.begins (isOf : draft.IsOf front) : Program.Begins front := by
  rcases draft.completes with ⟨tokens, last, program, runs, finished⟩
  rcases isOf.parse_runs runs finished with ⟨parsed, accepted⟩
  exact ⟨_, parsed, accepted⟩

/-- On a new line, a terminal that the draft accepts is read from its sample, with a blank behind it
or nothing at all, and goes on to a program. -/
theorem IsOf.exists_behind_of_accepts (isOf : draft.IsOf front) {terminal : Terminal}
    (accepts : draft.accepts terminal = true) :
    ∃ behind program, (∀ character ∈ behind.head?, Lexeme.isBlank character = true) ∧
      Program.Reads terminal (front ++ ['\n']) terminal.sample behind ∧
      Program.parse (String.ofList (front ++ '\n' :: (terminal.sample ++ behind))) =
        .ok program := by
  rcases exists_step_of_accepts accepts with ⟨next, step⟩
  rcases next.completes with ⟨tokens, last, program, runs, finished⟩
  have clear : (Token.sample terminal).IsClear draft.sought :=
    Token.isClear_sample (mem_sought_of_step step) draft.sought_eq_or
  rcases isOf.parse_runs (runs_sample step runs) finished with ⟨parsed, accepted⟩
  rcases clear.exists_layout tokens with ⟨blanks, blank, closed, laidOut, scanned⟩
  rw [laidOut] at accepted
  refine ⟨blanks ++ Token.layout tokens, parsed, ?_, isOf.reads scanned accepts, accepted⟩
  cases blanks with
  | nil =>
      rw [closed rfl]
      nofun
  | cons first others =>
      rintro character ⟨⟩
      exact blank first (List.mem_cons_self ..)

end Draft

/-! ## Where a reading ends -/

namespace Reading

/-- The reading cannot go on, and the text is rejected. `last` is the span of the last token. -/
inductive Fails : Reading → Span → Rejection → Prop
  | ended {draft : Draft} {position : Position} {rest : List Char} {last : Span}
      (gapped : Lexeme.gap rest = rest) (unfinished : draft.finish? = none) :
      Fails ⟨draft, position, rest⟩ last (.unexpectedEnd last draft.expected)
  | refused {draft : Draft} {position : Position} {blanks rest : List Char}
      {found : Lexeme.Found} {last : Span}
      (gapped : Lexeme.gap (blanks ++ (found.text ++ rest)) = blanks)
      (scanned : Lexeme.scan draft.sought (found.text ++ rest) = some found)
      (refused : draft.step ⟨found.terminal, found.text,
        .ofText (position.afterAll blanks) found.text⟩ = none) :
      Fails ⟨draft, position, blanks ++ (found.text ++ rest)⟩ last
        (.unexpectedToken found.text (.ofText (position.afterAll blanks) found.text)
          draft.expectedInstead)
  | unsought {draft : Draft} {position : Position} {blanks rest : List Char}
      {found : Lexeme.Found} {last : Span}
      (gapped : Lexeme.gap (blanks ++ (found.text ++ rest)) = blanks)
      (unsought : Lexeme.scan draft.sought (found.text ++ rest) = none)
      (scanned : Lexeme.scan Terminal.all (found.text ++ rest) = some found) :
      Fails ⟨draft, position, blanks ++ (found.text ++ rest)⟩ last
        (.unexpectedToken found.text (.ofText (position.afterAll blanks) found.text)
          draft.expected)
  | unknown {draft : Draft} {position : Position} {blanks rest : List Char} {character : Char}
      {last : Span} (gapped : Lexeme.gap (blanks ++ character :: rest) = blanks)
      (scanned : Lexeme.scan Terminal.all (character :: rest) = none) :
      Fails ⟨draft, position, blanks ++ character :: rest⟩ last
        (.unexpectedCharacter character (position.afterAll blanks))

theorem exists_fails_of_missed {draft : Draft} {position : Position} {blanks rest : List Char}
    {character : Char} (gapped : Lexeme.gap (blanks ++ character :: rest) = blanks)
    (missed : Lexeme.scan draft.sought (character :: rest) = none) (last : Span) :
    ∃ rejection, outcome ⟨draft, position, blanks ++ character :: rest⟩ last = .error rejection ∧
      Fails ⟨draft, position, blanks ++ character :: rest⟩ last rejection := by
  rw [outcome_of_missed gapped missed]
  cases scanned : Lexeme.scan Terminal.all (character :: rest) with
  | none => exact ⟨_, rfl, .unknown gapped scanned⟩
  | some found =>
      rcases Lexeme.scan_begins scanned with ⟨tail, behind⟩
      rw [← behind] at gapped missed scanned ⊢
      exact ⟨_, rfl, .unsought gapped missed scanned⟩

variable {text : List Char}

/-- A rejection comes from the end of a run, and it knows the last token of the run: as long as
there is none, the draft is a program. The induction is on the length of the text that is yet to be
read. -/
theorem exists_fails {draft : Draft} {last : Span} {position : Position} {characters : List Char}
    {rejection : Rejection}
    (begun : ∃ front, HasRead ⟨draft, position, characters⟩ text front)
    (known : draft.finish? = none → ∃ piece, last.Covers text piece)
    (read : draft.read last position characters = .error rejection) :
    ∃ later lastLater, Reaches ⟨draft, position, characters⟩ later ∧
      later.Fails lastLater rejection ∧
      (later.draft.finish? = none → ∃ piece, lastLater.Covers text piece) := by
  have rejected : outcome ⟨draft, position, characters⟩ last = .error rejection := read
  clear read
  induction size : characters.length using Nat.strong_induction_on
    generalizing draft last position characters with
  | h count induction =>
    rcases gap_or_missed_or_found draft.sought characters with
      gapped | ⟨blanks, character, rest, rfl, gapped, missed⟩ |
        ⟨blanks, found, rest, rfl, gapped, scanned⟩
    · rw [outcome_of_gap gapped] at rejected
      cases finished : draft.finish? with
      | some program =>
          rw [finished] at rejected
          cases rejected
      | none =>
          rw [finished] at rejected
          cases rejected
          exact ⟨_, last, .refl, .ended gapped finished, known⟩
    · rcases @exists_fails_of_missed draft position _ _ _ gapped missed last with
        ⟨other, rejectedOther, fails⟩
      cases rejected.symm.trans rejectedOther
      exact ⟨_, last, .refl, fails, known⟩
    · rw [outcome_of_found gapped scanned] at rejected
      cases stepped : draft.step ⟨found.terminal, found.text,
          .ofText (position.afterAll blanks) found.text⟩ with
      | none =>
          rw [stepped] at rejected
          cases rejected
          exact ⟨_, last, .refl, .refused gapped scanned stepped, known⟩
      | some next =>
          rw [stepped] at rejected
          rcases begun with ⟨front, place⟩
          have nonempty := List.length_pos_iff.mp (Lexeme.length_pos_of_scan scanned)
          -- The token that is taken is the last one from here on.
          have covers := (place.covers nonempty gapped).mono (place.token next).isPrefix
          have shorter : rest.length < count := by
            have positive := Lexeme.length_pos_of_scan scanned
            rw [← size, List.length_append, List.length_append]
            omega
          rcases induction _ shorter ⟨_, place.token _⟩ (fun _ => ⟨found.text, covers⟩) rejected
            rfl with ⟨later, lastLater, reaches, fails⟩
          exact ⟨later, lastLater, .head (.token gapped scanned stepped) reaches, fails⟩

end Reading

end ServiceModules
