import Mathlib.Logic.Relation
import ServiceModules.Program.Parse
import ServiceModules.Proofs.Source.Order
import ServiceModules.Proofs.Token.Extent

/-!
Reading as a run. A reading has come to a draft and has the rest of the text before it; one step
passes a gap and takes a token. A text is read as a program exactly when some run comes to a draft
that can be finished and has nothing but a gap before it.
-/

namespace ServiceModules

structure Reading where
  draft : Draft
  position : Position
  rest : List Char

namespace Reading

def start (characters : List Char) : Reading := ⟨.empty, .first, characters⟩

/-- The next token is found behind a gap, and the draft takes it. -/
inductive Takes : Reading → Reading → Prop
  | token {draft next : Draft} {position : Position} {gap rest : List Char}
      {found : Lexeme.Found} (gapped : Lexeme.gap (gap ++ (found.text ++ rest)) = gap)
      (scanned : Lexeme.scan draft.sought (found.text ++ rest) = some found)
      (stepped : draft.step ⟨found.terminal, found.text,
        .ofText (position.afterAll gap) found.text⟩ = some next) :
      Takes ⟨draft, position, gap ++ (found.text ++ rest)⟩
        ⟨next, (position.afterAll gap).afterAll found.text, rest⟩

def Reaches : Reading → Reading → Prop := Relation.ReflTransGen Takes

def Ends (reading : Reading) (program : Program) : Prop :=
  Lexeme.gap reading.rest = reading.rest ∧ reading.draft.finish? = some program

def Accepts (reading : Reading) (program : Program) : Prop :=
  ∃ last, reading.Reaches last ∧ last.Ends program

end Reading

namespace Reading

/-- What is yet to be read, and what comes of it. `last` is the span of the last token, which only
a rejection tells. -/
def outcome (reading : Reading) (last : Span) (keepsDocumentation : Bool := true) :
    Except Rejection Program :=
  reading.draft.read last reading.position reading.rest keepsDocumentation

variable {reading later : Reading} {program : Program}

theorem Takes.position_before (takes : reading.Takes later) :
    reading.position.Before later.position := by
  cases takes with
  | @token _ _ position gap _ _ _ scanned _ =>
      have positive := Lexeme.length_pos_of_scan scanned
      exact (Position.atMost_afterAll position gap).trans_before
        (Position.before_afterAll _ positive)

theorem outcome_of_found {draft : Draft} {position : Position} {gap rest : List Char}
    {found : Lexeme.Found} (gapped : Lexeme.gap (gap ++ (found.text ++ rest)) = gap)
    (scanned : Lexeme.scan draft.sought (found.text ++ rest) = some found) (last : Span)
    (keepsDocumentation : Bool := true) :
    outcome ⟨draft, position, gap ++ (found.text ++ rest)⟩ last keepsDocumentation =
      match draft.step ⟨found.terminal, found.text,
          .ofText (position.afterAll gap) found.text⟩ keepsDocumentation with
      | some next =>
        outcome ⟨next, (position.afterAll gap).afterAll found.text, rest⟩
          (.ofText (position.afterAll gap) found.text) keepsDocumentation
      | none =>
        .error (.unexpectedToken found.text (.ofText (position.afterAll gap) found.text)
          draft.expectedInstead) := by
  have behind : (gap ++ (found.text ++ rest)).drop
      (Lexeme.gap (gap ++ (found.text ++ rest))).length = found.text ++ rest := by
    rw [gapped, List.drop_left]
  rw [outcome, Draft.read]
  simp only
  split
  · next nothing =>
    have nonempty := Lexeme.length_pos_of_scan scanned
    rw [behind, List.append_eq_nil_iff] at nothing
    rw [nothing.1] at nonempty
    cases nonempty
  · next character characters remaining =>
    rw [behind] at remaining
    split
    · next other scannedOther =>
      rw [← remaining, scanned] at scannedOther
      cases scannedOther
      rw [← remaining, gapped, List.drop_left]
      cases draft.step ⟨found.terminal, found.text,
        .ofText (position.afterAll gap) found.text⟩ keepsDocumentation <;> rfl
    · next missed =>
      rw [← remaining, scanned] at missed
      cases missed

theorem outcome_of_missed {draft : Draft} {position : Position} {blanks rest : List Char}
    {character : Char} (gapped : Lexeme.gap (blanks ++ character :: rest) = blanks)
    (missed : Lexeme.scan draft.sought (character :: rest) = none) (last : Span)
    (keepsDocumentation : Bool := true) :
    outcome ⟨draft, position, blanks ++ character :: rest⟩ last keepsDocumentation =
      match Lexeme.scan Terminal.all (character :: rest) with
      | some found =>
        .error (.unexpectedToken found.text (.ofText (position.afterAll blanks) found.text)
          draft.expected)
      | none => .error (.unexpectedCharacter character (position.afterAll blanks)) := by
  have behind : (blanks ++ character :: rest).drop
      (Lexeme.gap (blanks ++ character :: rest)).length = character :: rest := by
    rw [gapped, List.drop_left]
  rw [outcome, Draft.read]
  simp only
  split
  · next nothing =>
    rw [behind] at nothing
    cases nothing
  · next remaining =>
    rw [behind] at remaining
    cases remaining
    split
    · next scanned =>
      rw [missed] at scanned
      cases scanned
    · cases Lexeme.scan Terminal.all (character :: rest) <;> simp only [gapped]

theorem outcome_of_gap {draft : Draft} {position : Position} {rest : List Char}
    (gapped : Lexeme.gap rest = rest) (last : Span) (keepsDocumentation : Bool := true) :
    outcome ⟨draft, position, rest⟩ last keepsDocumentation =
      match draft.finish? with
      | some program => .ok program
      | none => .error (.unexpectedEnd last draft.expected) := by
  rw [outcome, Draft.read]
  simp only
  split
  · rfl
  · next remaining =>
    rw [gapped, List.drop_length] at remaining
    cases remaining

/-- What stands before a reading: a gap up to the end, or behind the gap something that is not
looked for, or a token. -/
theorem gap_or_missed_or_found (sought : List Terminal) (characters : List Char) :
    Lexeme.gap characters = characters ∨
      (∃ blanks character rest, characters = blanks ++ character :: rest ∧
        Lexeme.gap (blanks ++ character :: rest) = blanks ∧
        Lexeme.scan sought (character :: rest) = none) ∨
      ∃ blanks found rest, characters = blanks ++ (found.text ++ rest) ∧
        Lexeme.gap (blanks ++ (found.text ++ rest)) = blanks ∧
        Lexeme.scan sought (found.text ++ rest) = some found := by
  have whole := Lexeme.gap_append_drop characters
  cases remaining : characters.drop (Lexeme.gap characters).length with
  | nil =>
      rw [remaining, List.append_nil] at whole
      exact .inl whole
  | cons character rest =>
      rw [remaining] at whole
      cases scanned : Lexeme.scan sought (character :: rest) with
      | none => exact .inr (.inl ⟨_, _, _, whole.symm, by rw [whole], scanned⟩)
      | some found =>
          rcases Lexeme.scan_begins scanned with ⟨more, equal⟩
          rw [← equal] at scanned whole
          exact .inr (.inr ⟨_, found, more, whole.symm, by rw [whole], scanned⟩)

theorem outcome_cons_of_isBlank {draft : Draft} {position : Position} {rest : List Char}
    {character : Char} (blank : Lexeme.isBlank character = true) (last : Span) :
    outcome ⟨draft, position, character :: rest⟩ last =
      outcome ⟨draft, position.after character, rest⟩ last := by
  have longer : Lexeme.gap (character :: rest) = character :: Lexeme.gap rest :=
    Lexeme.gapFrom_false_cons_of_isBlank blank rest
  rcases gap_or_missed_or_found draft.sought rest with
    gapped | ⟨blanks, next, tail, rfl, gapped, missed⟩ | ⟨blanks, found, tail, rfl, gapped, scanned⟩
  · rw [gapped] at longer
    rw [outcome_of_gap longer, outcome_of_gap gapped]
  · rw [gapped] at longer
    exact (@outcome_of_missed _ _ (character :: blanks) _ _ longer missed last).trans
      (outcome_of_missed gapped missed last).symm
  · rw [gapped] at longer
    exact (@outcome_of_found _ _ (character :: blanks) _ _ longer scanned last).trans
      (outcome_of_found gapped scanned last).symm

theorem Takes.outcome_eq (takes : reading.Takes later) (last : Span) :
    ∃ lastLater, reading.outcome last = later.outcome lastLater := by
  cases takes with
  | token gapped scanned stepped =>
      rw [outcome_of_found gapped scanned, stepped]
      exact ⟨_, rfl⟩

theorem Reaches.outcome_eq (reaches : reading.Reaches later) (last : Span) :
    ∃ lastLater, reading.outcome last = later.outcome lastLater := by
  induction reaches with
  | refl => exact ⟨last, rfl⟩
  | tail _ takes induction =>
      rcases induction with ⟨lastBetween, same⟩
      rcases takes.outcome_eq lastBetween with ⟨lastLater, sameLater⟩
      exact ⟨lastLater, same.trans sameLater⟩

theorem Ends.outcome_eq (ends : reading.Ends program) (last : Span) :
    reading.outcome last = .ok program := by
  rcases ends with ⟨gapped, finished⟩
  exact (outcome_of_gap gapped last).trans (by rw [finished])

theorem accepts_of_read_eq_ok {draft : Draft} {last : Span} {position : Position}
    {characters : List Char} (read : draft.read last position characters = .ok program) :
    Accepts ⟨draft, position, characters⟩ program := by
  fun_induction Draft.read draft last position characters with
  | case1 draft last position characters gap remaining found finished =>
      have whole : gap ++ characters.drop gap.length = characters :=
        Lexeme.gap_append_drop characters
      rw [remaining, List.append_nil] at whole
      cases read
      exact ⟨_, .refl, whole, finished⟩
  | case3 draft last position characters gap start character rest remaining found scanned span
      next stepped shorter induction =>
      have whole : gap ++ characters.drop gap.length = characters :=
        Lexeme.gap_append_drop characters
      have behind : found.text ++ (character :: rest).drop found.text.length = character :: rest :=
        List.prefix_iff_eq_append.mp (Lexeme.scan_begins scanned)
      rw [remaining, ← behind] at whole
      rw [← behind] at scanned
      rcases induction read with ⟨final, reaches, ends⟩
      have takes := @Takes.token draft next position gap _ found (by rw [whole]) scanned stepped
      rw [whole] at takes
      exact ⟨final, .head takes reaches, ends⟩
  | case2 | case4 | case5 | case6 => cases read

theorem outcome_eq_ok_iff {last : Span} :
    reading.outcome last = .ok program ↔ reading.Accepts program := by
  constructor
  · exact accepts_of_read_eq_ok
  · rintro ⟨final, reaches, ends⟩
    rcases reaches.outcome_eq last with ⟨lastLater, same⟩
    rw [same]
    exact ends.outcome_eq lastLater

theorem Accepts.behind (accepts : reading.Accepts program) (reaches : reading.Reaches later) :
    later.Accepts program := by
  rcases reaches.outcome_eq default with ⟨lastLater, same⟩
  rw [← outcome_eq_ok_iff, ← same, outcome_eq_ok_iff]
  exact accepts

end Reading

/-- A text is a program when some reading of it ends with this program. -/
theorem Program.parse_eq_ok_iff {text : String} {program : Program} :
    parse text = .ok program ↔ (Reading.start text.toList).Accepts program :=
  @Reading.outcome_eq_ok_iff (.start text.toList) program noToken

end ServiceModules
