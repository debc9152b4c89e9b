import ServiceModules.Proofs.Draft.Wordless
import ServiceModules.Proofs.Program.Rejection
import ServiceModules.Proofs.Program.Table
import ServiceModules.Proofs.Token.LineEnds

/-!
Line ends make no difference. The text with a carriage return before every line feed is read side by
side with the text as it is: token after token, the two readings stand at the same place and have
the same draft but for the words of documentation. Both come to the same program or to rejections
with the same place and the same note.
-/

namespace ServiceModules

open Text (withReturns)

/-- Programs that differ in the words of documentation only, or rejections that tell the same place
and expect the same. -/
inductive Program.Alike : Except Rejection Program → Except Rejection Program → Prop
  | accepted {program other : Program} (same : program.wordless = other.wordless) :
      Alike (.ok program) (.ok other)
  | rejected {rejection other : Rejection} (place : rejection.start = other.start)
      (expects : rejection.expected? = other.expected?) : Alike (.error rejection) (.error other)

namespace Reading

open Program (Alike)

variable {draft other : Draft} {position : Position} {blanks rest : List Char}
  {last otherLast : Span}

theorem alike_of_gap (same : draft.wordless = other.wordless)
    (sameStart : last.start = otherLast.start) (gapped : Lexeme.gap rest = rest) :
    Alike (outcome ⟨draft, position, rest⟩ last)
      (outcome ⟨other, position, withReturns rest⟩ otherLast) := by
  have gappedOther : Lexeme.gap (withReturns rest) = withReturns rest := by
    rw [Lexeme.gap_withReturns, gapped]
  have sameEnd := Draft.finish?_of_wordless same
  rw [outcome_of_gap gapped, outcome_of_gap gappedOther]
  cases finished : draft.finish? with
  | none =>
      rw [finished, Option.map_none, eq_comm, Option.map_eq_none_iff] at sameEnd
      rw [sameEnd]
      exact .rejected sameStart (congrArg some (Draft.expected_of_wordless same))
  | some program =>
      rw [finished, Option.map_some, eq_comm, Option.map_eq_some_iff] at sameEnd
      rcases sameEnd with ⟨programOther, finishedOther, samePrograms⟩
      rw [finishedOther]
      exact .accepted samePrograms.symm

theorem gap_append_withReturns {tail : List Char} (gapped : Lexeme.gap (blanks ++ tail) = blanks) :
    Lexeme.gap (withReturns blanks ++ withReturns tail) = withReturns blanks := by
  rw [← Text.withReturns_append, Lexeme.gap_withReturns, gapped]

theorem alike_of_missed {character : Char} (same : draft.wordless = other.wordless)
    (gapped : Lexeme.gap (blanks ++ character :: rest) = blanks)
    (missed : Lexeme.scan draft.sought (character :: rest) = none) :
    Alike (outcome ⟨draft, position, blanks ++ character :: rest⟩ last)
      (outcome ⟨other, position, withReturns (blanks ++ character :: rest)⟩ otherLast) := by
  have visible := Text.isVisible_behind_gap (List.cons_ne_nil _ _) gapped
  have notFeed : character ≠ '\n' := by
    rcases visible.exists_head with ⟨_, _, ⟨⟩, other⟩
    exact other
  have alsoMissed : ∀ sought, Lexeme.scan sought (character :: withReturns rest) = none ↔
      Lexeme.scan sought (character :: rest) = none := by
    intro sought
    rw [← Text.withReturns_cons notFeed]
    exact Lexeme.scan_withReturns_eq_none_iff visible
  have gappedOther := gap_append_withReturns gapped
  have missedOther : Lexeme.scan other.sought (character :: withReturns rest) = none := by
    rw [alsoMissed, ← Draft.sought_eq_of_wordless same, missed]
  rw [Text.withReturns_cons notFeed] at gappedOther
  rw [Text.withReturns_append, Text.withReturns_cons notFeed, outcome_of_missed gapped missed,
    outcome_of_missed gappedOther missedOther, Position.afterAll_withReturns]
  cases scanned : Lexeme.scan Terminal.all (character :: rest) with
  | none =>
      rw [(alsoMissed Terminal.all).mpr scanned]
      exact .rejected rfl rfl
  | some found =>
      cases scannedOther : Lexeme.scan Terminal.all (character :: withReturns rest) with
      | none =>
          rw [(alsoMissed Terminal.all).mp scannedOther] at scanned
          cases scanned
      | some foundOther =>
          exact .rejected rfl (congrArg some (Draft.expected_of_wordless same))

theorem wordless_of_returned {found foundOther : Lexeme.Found} {behind : List Char}
    (returned : found.Returned rest foundOther behind) :
    Token.wordless ⟨found.terminal, found.text, .ofText position found.text⟩ =
      Token.wordless ⟨foundOther.terminal, foundOther.text, .ofText position foundOther.text⟩ := by
  cases returned <;> rfl

/-- The carriage return that documentation took is a blank before the rest. -/
theorem outcome_of_returned {found foundOther : Lexeme.Found} {behind : List Char}
    (returned : found.Returned rest foundOther behind) (last : Span) :
    outcome ⟨draft, position.afterAll foundOther.text, behind⟩ last =
      outcome ⟨draft, position.afterAll found.text, withReturns rest⟩ last := by
  cases returned with
  | same => rfl
  | line text rest =>
      have passed := @outcome_cons_of_isBlank draft (position.afterAll text)
        ('\n' :: withReturns rest) '\r' rfl last
      rw [Position.afterAll_append]
      exact passed.symm

theorem alike_of_found {found : Lexeme.Found} (same : draft.wordless = other.wordless)
    (gapped : Lexeme.gap (blanks ++ (found.text ++ rest)) = blanks)
    (scanned : Lexeme.scan draft.sought (found.text ++ rest) = some found)
    (goesOn : ∀ {next nextOther : Draft} {place : Position} {span spanOther : Span},
      next.wordless = nextOther.wordless → span.start = spanOther.start →
        Alike (outcome ⟨next, place, rest⟩ span)
          (outcome ⟨nextOther, place, withReturns rest⟩ spanOther)) :
    Alike (outcome ⟨draft, position, blanks ++ (found.text ++ rest)⟩ last)
      (outcome ⟨other, position, withReturns (blanks ++ (found.text ++ rest))⟩ otherLast) := by
  have visible := Text.isVisible_behind_gap (Lexeme.append_ne_nil_of_scan scanned) gapped
  rcases Lexeme.exists_scan_withReturns visible scanned with
    ⟨foundOther, behind, returned, whole, scannedOther⟩
  have gappedOther := gap_append_withReturns gapped
  rw [whole] at gappedOther
  rw [Draft.sought_eq_of_wordless same] at scannedOther
  have stepped := Draft.step_of_wordless same
    (@wordless_of_returned (position.afterAll blanks) _ _ _ _ returned)
  rw [Text.withReturns_append, whole, outcome_of_found gapped scanned,
    outcome_of_found gappedOther scannedOther, Position.afterAll_withReturns]
  cases takes : draft.step ⟨found.terminal, found.text,
      .ofText (position.afterAll blanks) found.text⟩ with
  | none =>
      rw [takes, Option.map_none, eq_comm, Option.map_eq_none_iff] at stepped
      rw [stepped]
      exact .rejected rfl (congrArg some (Draft.expectedInstead_of_wordless same))
  | some next =>
      rw [takes, Option.map_some, eq_comm, Option.map_eq_some_iff] at stepped
      rcases stepped with ⟨nextOther, takesOther, sameNext⟩
      rw [takesOther]
      dsimp only
      rw [outcome_of_returned returned]
      apply goesOn sameNext.symm
      rfl

/-- Side by side, the two readings come to the same. The induction is on the length of the text that
is yet to be read. -/
theorem alike_withReturns (same : draft.wordless = other.wordless)
    (sameStart : last.start = otherLast.start) :
    Alike (outcome ⟨draft, position, rest⟩ last)
      (outcome ⟨other, position, withReturns rest⟩ otherLast) := by
  -- A token is taken from both texts at a time, so that the first one gets shorter.
  induction size : rest.length using Nat.strong_induction_on
    generalizing draft other position rest last otherLast with
  | h count induction =>
    rcases gap_or_missed_or_found draft.sought rest with
      gapped | ⟨blanks, character, tail, rfl, gapped, missed⟩ |
        ⟨blanks, found, tail, rfl, gapped, scanned⟩
    · exact alike_of_gap same sameStart gapped
    · exact alike_of_missed same gapped missed
    · have shorter : tail.length < count := by
        have positive := Lexeme.length_pos_of_scan scanned
        rw [← size, List.length_append, List.length_append]
        omega
      exact alike_of_found same gapped scanned fun sameNext sameSpan =>
        induction tail.length shorter sameNext sameSpan rfl

end Reading

/-- The reports of two faults tell the same place and have the same note. -/
def Fault.IsToldLike (fault other : Fault) : Prop :=
  ∃ report reportOther location locationOther,
    fault.report? = some report ∧ other.report? = some reportOther ∧
    report.diagnostic.location = some location ∧
    reportOther.diagnostic.location = some locationOther ∧
    location.file = locationOther.file ∧ location.line = locationOther.line ∧
    location.column = locationOther.column ∧
    report.diagnostic.note = reportOther.diagnostic.note

theorem Rejection.isToldLike {rejection other : Rejection} (place : rejection.start = other.start)
    (expects : rejection.expected? = other.expected?) (uri text textOther : String) :
    Fault.IsToldLike (.rejected uri text rejection) (.rejected uri textOther other) := by
  rcases rejection.location_eq uri with ⟨file, line, column⟩
  rcases other.location_eq uri with ⟨fileOther, lineOther, columnOther⟩
  have note : rejection.note? = other.note? := by
    rw [rejection.note?_eq, expects, other.note?_eq]
  refine ⟨rejection.report uri text, other.report uri textOther, _, _, rfl, rfl, rfl, rfl,
    file.trans fileOther.symm, ?_, ?_, note⟩
  · rw [line, place, lineOther]
  · rw [column, place, columnOther]

namespace Program

theorem parse_withReturns (text : String) :
    Alike (parse text) (parse (String.ofList (withReturns text.toList))) := by
  rw [parse, parse, String.toList_ofList]
  exact Reading.alike_withReturns rfl rfl

theorem symbolTable_eq_of_wordless {program other : Program}
    (same : program.wordless = other.wordless) (uri : String) :
    program.symbolTable uri = other.symbolTable uri := by
  rw [← symbolTable_withoutDocumentation program, withoutDocumentation_eq_of_wordless same,
    symbolTable_withoutDocumentation]

/-- A text and the text with a carriage return before every line feed are programs both or neither.
The programs are the same, places included, but for the words of documentation, and have the same
symbol table; the faults tell the same place and have the same note. -/
theorem ofText_withReturns (keepsDocumentation : Bool) (uri text : String) :
    (∃ program other, ofText keepsDocumentation uri text = .ok program ∧
      ofText keepsDocumentation uri (String.ofList (withReturns text.toList)) = .ok other ∧
      program.wordless = other.wordless ∧
      ∀ name, program.symbolTable name = other.symbolTable name) ∨
    ∃ fault other, ofText keepsDocumentation uri text = .error fault ∧
      ofText keepsDocumentation uri (String.ofList (withReturns text.toList)) = .error other ∧
      fault.IsToldLike other := by
  rw [ofText_eq_parse, ofText_eq_parse]
  generalize also : String.ofList (withReturns text.toList) = returned
  have alike := parse_withReturns text
  rw [also] at alike
  generalize parse text = result at alike
  generalize parse returned = resultOther at alike
  cases alike with
  | rejected place expects =>
      exact .inr ⟨_, _, rfl, rfl, Rejection.isToldLike place expects uri text returned⟩
  | @accepted program other same =>
      have kept : (if keepsDocumentation then program else program.withoutDocumentation).wordless =
          (if keepsDocumentation then other else other.withoutDocumentation).wordless := by
        cases keepsDocumentation with
        | true => exact same
        | false => exact congrArg wordless (withoutDocumentation_eq_of_wordless same)
      exact .inl ⟨_, _, rfl, rfl, kept, symbolTable_eq_of_wordless kept⟩

/-- Words of documentation do change: a line of it keeps the carriage return at its end. -/
example : (ofText true "a" "/// words\r\ntype A: int\r\n").map
    (fun program => program.declarations.map Declaration.documentation) = .ok [some "words\r"] := by
  cbv

end Program

end ServiceModules
