import ServiceModules.Proofs.Draft.Rejection
import ServiceModules.Proofs.Token.Trivia

/-!
Readings of a text that something is put into. Blanks and comments between two parts of a text go
on with the gap that stands there, and the reading that has come to this gap goes on behind them.
Only at the end of a text does it matter whether an empty comment stands there.
-/

namespace ServiceModules

/-! ## Slashes in what was read -/

theorem Text.slashed_of_newline {before : Bool} {text : List Char} (nonempty : text ≠ [])
    (newline : ∀ next ∈ text.head?, next = '\n') : slashed before text = slashed false text := by
  cases text with
  | nil => exact absurd rfl nonempty
  | cons first rest =>
    cases newline first rfl
    rfl

namespace Reading

open Text (slashed)

variable {reading later : Reading} {text read : List Char}

theorem slashed_of_scan {sought : List Terminal} {found : Lexeme.Found} {rest : List Char}
    (scanned : Lexeme.scan sought (found.text ++ rest) = some found) :
    slashed false found.text = false ∨ ∀ next ∈ rest.head?, next = '\n' := by
  by_cases commented : found.terminal = .docComment
  · exact .inr (Lexeme.head?_behind_docComment? (Lexeme.docComment?_of_scan scanned commented))
  · left
    have noComment := Lexeme.docComment?_of_scan_other scanned commented []
    rw [List.append_nil] at noComment
    rcases Lexeme.exists_lexeme?_of_scan scanned with ⟨terminal, _, lexed, _⟩
    exact Text.slashed_of_not_mem (Lexeme.not_mem_of_lexeme? rfl (.inr noComment) lexed)

theorem Reaches.exists_slashed (reaches : (start text).Reaches reading) :
    ∃ read, reading.HasRead text read ∧
      (slashed false read = false ∨ ∀ next ∈ reading.rest.head?, next = '\n') := by
  induction reaches with
  | refl => exact ⟨[], ⟨rfl, rfl⟩, .inl rfl⟩
  | tail _ takes induction =>
    rcases induction with ⟨read, place, clear⟩
    cases takes with
    | @token draft next position gap rest found gapped scanned stepped =>
      refine ⟨_, place.token next, ?_⟩
      have nonempty : found.text ++ rest ≠ [] := Lexeme.append_ne_nil_of_scan scanned
      have closed := Lexeme.slashed_of_gapFrom nonempty gapped
      have clearGap : slashed (slashed false read) gap = false := by
        rcases clear with clear | newline
        · rw [clear, closed]
        · cases gap with
          | nil =>
            -- The token would begin with the line break.
            have visible := Text.isVisible_of_gap nonempty gapped
            rcases visible.exists_head with ⟨first, more, begins, noBreak⟩
            have newline : ∀ next ∈ (found.text ++ rest).head?, next = '\n' := newline
            rw [begins] at newline
            exact absurd (newline first rfl) noBreak
          | cons first gap =>
            have newline : ∀ next ∈ (first :: gap).head?, next = '\n' := newline
            rw [Text.slashed_of_newline (List.cons_ne_nil _ _) newline, closed]
      refine (slashed_of_scan scanned).imp_left fun clearToken => ?_
      rw [Text.slashed_append, Text.slashed_append, clearGap, clearToken]

/-! ## Where something is put in -/

/-- The reading has come to the place between two parts of a text, but for a gap, which goes on with
what is put there. -/
structure Stands (reading : Reading) (before trivia after blanks : List Char) : Prop where
  reaches : (start (before ++ after)).Reaches reading
  same : reading.rest = blanks ++ after
  gapped : Lexeme.gap (blanks ++ after) = blanks ++ Lexeme.gap after
  gappedApart : Lexeme.gap (blanks ++ trivia ++ after) = blanks ++ trivia ++ Lexeme.gap after
  closed : Text.IsVisible after ∨ reading.draft.finish?.isSome

variable {before trivia after blanks : List Char}

theorem Takes.stands (takes : reading.Takes later)
    (reaches : (start (before ++ after)).Reaches reading) (same : reading.rest = blanks ++ after)
    (gapped : Lexeme.gap reading.rest = blanks) (isTrivia : Lexeme.IsTrivia trivia) :
    reading.Stands before trivia after blanks := by
  cases takes with
  | @token draft next position gap rest found gappedToken scanned stepped =>
    have gapped : Lexeme.gap (gap ++ (found.text ++ rest)) = blanks := gapped
    have same : gap ++ (found.text ++ rest) = blanks ++ after := same
    rw [gappedToken] at gapped
    subst gapped
    rw [List.append_cancel_left_eq] at same
    subst same
    have nonempty : found.text ++ rest ≠ [] := Lexeme.append_ne_nil_of_scan scanned
    have nothing := Lexeme.gap_of_scan scanned []
    rw [List.append_nil] at nothing
    have goesOn := Lexeme.gapFrom_append nonempty gappedToken
    refine ⟨reaches, rfl, goesOn _, ?_, .inl (Text.isVisible_of_gap nonempty nothing)⟩
    rw [List.append_assoc, List.append_assoc, ← isTrivia.gap_append]
    exact goesOn _

theorem exists_stands_of_accepts {program : Program} (accepts : (start before).Accepts program)
    (isTrivia : Lexeme.IsTrivia trivia)
    (apart : ¬(Text.EndsInSlashes before ∧ trivia.head? = some '/')) :
    ∃ reading blanks, Stands reading before trivia [] blanks := by
  rcases accepts with ⟨reading, reaches, gapped, finished⟩
  rcases reaches.exists_slashed with ⟨read, place, clear⟩
  have goesOn : Lexeme.gap (reading.rest ++ trivia) = reading.rest ++ trivia := by
    rw [Lexeme.gap, Lexeme.gapFrom_append_whole gapped, isTrivia.gapFrom_eq]
    intro slash code ends
    rw [← Bool.not_eq_false]
    intro codeClear
    -- The gap would end in the slashes of an empty comment, and so would the text.
    refine apart ⟨⟨read ++ code, ?_, ?_⟩, slash⟩
    · rw [place.1, ends, List.append_assoc]
    · rw [Text.slashed_append]
      rcases clear with clear | newline
      · rw [clear, codeClear]
      · cases code with
        | nil =>
          rw [ends] at newline
          cases newline '/' rfl
        | cons first code =>
          rw [ends] at newline
          have newline : ∀ next ∈ (first :: code).head?, next = '\n' := newline
          rw [Text.slashed_of_newline (List.cons_ne_nil _ _) newline, codeClear]
  refine ⟨reading, reading.rest, ?_, ?_, ?_, ?_, .inr ?_⟩
  · rw [List.append_nil]
    exact reaches
  · rw [List.append_nil]
  · rw [List.append_nil]
    exact gapped.trans (List.append_nil _).symm
  · rw [List.append_nil]
    exact goesOn.trans (List.append_nil _).symm
  · rw [finished]
    rfl

/-! ## Reading on behind what was put in -/

theorem Accepts.past_gap {draft : Draft} {position : Position} {rest : List Char}
    {program : Program} (accepts : Accepts ⟨draft, position, blanks ++ rest⟩ program)
    (gapped : Lexeme.gap (blanks ++ rest) = blanks ++ Lexeme.gap rest) :
    Accepts ⟨draft, position.afterAll blanks, rest⟩ program := by
  rcases accepts with ⟨last, reaches, nothing, finished⟩
  rcases reaches.cases_head with rfl | ⟨next, takes, reachesOn⟩
  · have nothing : Lexeme.gap (blanks ++ rest) = blanks ++ rest := nothing
    rw [gapped, List.append_cancel_left_eq] at nothing
    exact ⟨_, .refl, nothing, finished⟩
  · refine ⟨last, ?_, nothing, finished⟩
    generalize whole : blanks ++ rest = characters at takes gapped
    cases takes with
    | @token _ nextDraft _ gap tail found gappedToken scanned stepped =>
      rw [gappedToken] at gapped
      subst gapped
      rw [List.append_assoc, List.append_cancel_left_eq] at whole
      rw [Position.afterAll_append] at stepped reachesOn
      have takesBehind := @Takes.token draft nextDraft (position.afterAll blanks) (Lexeme.gap rest)
        tail found (by rw [← whole]) scanned stepped
      rw [← whole] at takesBehind
      exact .head takesBehind reachesOn

namespace Stands

variable (stands : reading.Stands before trivia after blanks)

include stands

theorem eq_append : ∃ read, before = read ++ blanks ∧
    reading.position = Position.first.afterAll read := by
  rcases stands.reaches.exists_between with ⟨read, whole, position⟩
  refine ⟨read, ?_, position⟩
  have whole : before ++ after = read ++ reading.rest := whole
  rw [stands.same, ← List.append_assoc, List.append_cancel_right_eq] at whole
  exact whole

theorem afterAll_position :
    reading.position.afterAll blanks = Position.first.afterAll before := by
  rcases stands.eq_append with ⟨read, split, position⟩
  rw [position, split, Position.afterAll_append]

theorem atMost_position : reading.position.AtMost (Position.first.afterAll before) := by
  rw [← stands.afterAll_position]
  exact Position.atMost_afterAll _ _

theorem reaches_apart (isTrivia : Lexeme.IsTrivia trivia) :
    (start (before ++ (trivia ++ after))).Reaches
      ⟨reading.draft, reading.position, blanks ++ (trivia ++ after)⟩ := by
  rcases stands.eq_append with ⟨read, rfl, _⟩
  cases trivia with
  | nil =>
    have reaches := stands.reaches
    rcases reading with ⟨draft, position, rest⟩
    cases stands.same
    exact reaches
  | cons first trivia =>
    have stops : ∀ stop ∈ (first :: trivia ++ after).head?, Lexeme.isStop stop = true :=
      isTrivia.stops
    rcases stands.reaches.onto stands.same stops fun _ => .inr stands.closed with
      ⟨front, whole, reaches⟩
    have whole : read ++ blanks ++ after = front ++ after := whole
    rw [List.append_cancel_right_eq] at whole
    rw [whole]
    exact reaches

/-- What is accepted from behind the gap and what was put into it is accepted from the beginning. -/
theorem accepts_apart (isTrivia : Lexeme.IsTrivia trivia) {relaid : Program}
    (accepts : Accepts ⟨reading.draft, Position.first.afterAll (before ++ trivia), after⟩ relaid) :
    (start (before ++ (trivia ++ after))).Accepts relaid := by
  have same : Position.first.afterAll (before ++ trivia) =
      reading.position.afterAll (blanks ++ trivia) := by
    rw [Position.afterAll_append, Position.afterAll_append, stands.afterAll_position]
  rw [same] at accepts
  rcases accepts.behind_gap stands.gappedApart with ⟨last, reaches, ends⟩
  rw [List.append_assoc] at reaches
  exact ⟨last, (stands.reaches_apart isTrivia).trans reaches, ends⟩

end Stands

end Reading

end ServiceModules
