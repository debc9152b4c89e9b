import ServiceModules.Proofs.Draft.Rejection
import ServiceModules.Proofs.Draft.Undocumented

/-!
Rejections are early and truthful. What stands before the place of a rejection is the beginning of
some program, so that no earlier place could have been told, and every terminal that its note lists
could have stood there.
-/

namespace ServiceModules

namespace Rejection

/-- What of a rejected text the rejection does not object to: the text before its place, which is
`front`, or all of the text when more of it was expected. -/
def sound (text front : List Char) : Rejection → List Char
  | .unexpectedEnd _ _ => text
  | .unexpectedToken _ _ _ => front
  | .unexpectedCharacter _ _ => front

def expected? : Rejection → Option Expectation
  | .unexpectedToken _ _ expected => some expected
  | .unexpectedCharacter _ _ => none
  | .unexpectedEnd _ expected => some expected

theorem note?_eq (rejection : Rejection) :
    rejection.note? = rejection.expected?.bind Expectation.note? := by
  cases rejection <;> rfl

end Rejection

namespace Program

/-- What a note promises of a label that it lists: the text may end where it is, or it goes on to a
program with a lexeme of the terminal on a new line. The lexeme ends there, with a blank behind it
or at the end of the text, and it is taken as a token of this terminal. -/
def Continues (front : List Char) (label : String) : Prop :=
  if label = "$END" then ∃ program, parse (String.ofList front) = .ok program
  else ∃ terminal lexeme behind program, Terminal.label terminal = label ∧
    Lexeme.scan Terminal.all lexeme = some ⟨terminal, lexeme⟩ ∧
    (∀ character ∈ behind.head?, Lexeme.isBlank character = true) ∧
    Reads terminal (front ++ ['\n']) lexeme behind ∧
    parse (String.ofList (front ++ '\n' :: (lexeme ++ behind))) = .ok program

end Program

/-- Each label of the expectation can be put behind the text. -/
def Expectation.IsOf (expectation : Expectation) (front : List Char) : Prop :=
  ∀ label ∈ expectation.labels, Program.Continues front label

theorem Expectation.note?_eq_some {expectation : Expectation} {note : String}
    (noted : expectation.note? = some note) :
    expectation.labels ≠ [] ∧
      note = "expected one of: " ++ ", ".intercalate expectation.labels := by
  unfold note? at noted
  split at noted
  · cases noted
  · next listed =>
    cases noted
    refine ⟨?_, rfl⟩
    rintro nothing
    rw [nothing] at listed
    exact listed rfl

theorem Terminal.label_ne (terminal : Terminal) : terminal.label ≠ "$END" := by
  cases terminal <;> decide

namespace Draft

variable {draft : Draft} {front : List Char}

theorem IsOf.expected (isOf : draft.IsOf front) : draft.expected.IsOf front := by
  intro label member
  rcases List.mem_append.mp member with ended | listed
  · split at ended
    · next atEnd =>
      rw [List.mem_singleton] at ended
      rcases Option.isSome_iff_exists.mp atEnd with ⟨program, finished⟩
      rw [Program.Continues, if_pos ended]
      exact ⟨program, isOf.parse finished⟩
    · cases ended
  · rcases List.mem_map.mp listed with ⟨terminal, accepted, rfl⟩
    rw [Program.Continues, if_neg terminal.label_ne]
    rcases isOf.exists_behind_of_accepts (List.mem_filter.mp accepted).2 with
      ⟨behind, program, blank, reads, accepted⟩
    exact ⟨terminal, terminal.sample, behind, program, rfl, Token.isClear_sample_all terminal,
      blank, reads, accepted⟩

theorem IsOf.expectedInstead (isOf : draft.IsOf front) : draft.expectedInstead.IsOf front := by
  unfold Draft.expectedInstead
  split
  · intro label member
    apply isOf.expected
    rcases List.mem_append.mp member with ended | listed
    · exact List.mem_append_left _ ended
    · rcases List.mem_map.mp listed with ⟨terminal, accepted, rfl⟩
      exact List.mem_append_right _ (List.mem_map_of_mem (List.mem_of_mem_erase accepted))
  · exact isOf.expected

end Draft

namespace Reading

theorem Reaches.exists_isOf {text blanks tail : List Char} {draft : Draft} {position : Position}
    (reaches : (start text).Reaches ⟨draft, position, blanks ++ tail⟩) (nonempty : tail ≠ [])
    (gapped : Lexeme.gap (blanks ++ tail) = blanks) :
    ∃ front character back, text = front ++ character :: back ∧ character ≠ '\n' ∧
      position.afterAll blanks = Position.first.afterAll front ∧ draft.IsOf front := by
  have visible := Text.isVisible_behind_gap nonempty gapped
  rcases visible.exists_head with ⟨character, back, rfl, other⟩
  rcases reaches.cut rfl with ⟨front, whole, reachesAlone⟩
  rcases reachesAlone.exists_between with ⟨between, split, placed⟩
  have split : front = between ++ blanks := split
  have placed : position = Position.first.afterAll between := placed
  refine ⟨front, character, back, whole, other, ?_, position, blanks, reachesAlone,
    Lexeme.gap_alone nonempty gapped⟩
  rw [split, Position.afterAll_append, placed]

end Reading

namespace Rejection

def start : Rejection → Position
  | .unexpectedToken _ span _ => span.start
  | .unexpectedCharacter _ position => position
  | .unexpectedEnd lastToken _ => lastToken.start

theorem location_eq (rejection : Rejection) (uri : String) :
    (rejection.location uri).file = uri ∧
      (rejection.location uri).line = rejection.start.line ∧
      (rejection.location uri).column = rejection.start.column := by
  cases rejection <;> exact ⟨rfl, rfl, rfl⟩

end Rejection

/-! ## Rejected texts -/

namespace Program

theorem exists_sound {text : String} {rejection : Rejection}
    (rejected : parse text = .error rejection) :
    ∃ front character back, text.toList = front ++ character :: back ∧ character ≠ '\n' ∧
      rejection.start = Position.first.afterAll front ∧
      Begins (rejection.sound text.toList front) ∧
      ∀ expected ∈ rejection.expected?, expected.IsOf (rejection.sound text.toList front) := by
  have begins : (Reading.start text.toList).HasRead text.toList [] := ⟨rfl, rfl⟩
  have unknown : Draft.empty.finish? = none → ∃ piece, noToken.Covers text.toList piece := nofun
  rcases Reading.exists_fails ⟨[], begins⟩ unknown rejected with
    ⟨later, last, reaches, fails, known⟩
  cases fails with
  | @ended draft position rest last gapped unfinished =>
      -- Nothing stands where the text ends, so that the last token is reported.
      rcases known unfinished with ⟨piece, visible, front, back, whole, rfl⟩
      rcases visible.exists_head with ⟨character, others, rfl, other⟩
      have isOf : draft.IsOf text.toList := ⟨position, rest, reaches, gapped⟩
      refine ⟨front, character, others ++ back, whole, other, rfl, isOf.begins, ?_⟩
      rintro expected ⟨⟩
      exact isOf.expected
  | @refused draft position blanks rest found last gapped scanned refused =>
      rcases reaches.exists_isOf (Lexeme.append_ne_nil_of_scan scanned) gapped with
        ⟨front, character, back, whole, other, place, isOf⟩
      refine ⟨front, character, back, whole, other, place, isOf.begins, ?_⟩
      rintro expected ⟨⟩
      exact isOf.expectedInstead
  | @unsought draft position blanks rest found last gapped missed scanned =>
      rcases reaches.exists_isOf (Lexeme.append_ne_nil_of_scan scanned) gapped with
        ⟨front, character, back, whole, other, place, isOf⟩
      refine ⟨front, character, back, whole, other, place, isOf.begins, ?_⟩
      rintro expected ⟨⟩
      exact isOf.expected
  | @unknown draft position blanks rest character last gapped scanned =>
      rcases reaches.exists_isOf (List.cons_ne_nil _ _) gapped with
        ⟨front, character, back, whole, other, place, isOf⟩
      exact ⟨front, character, back, whole, other, place, isOf.begins, nofun⟩

end Program

/-- What a reader may rely on when a text is rejected. The report names a character of the text and
the file that it stands in. The text before this character, or all of it when the end came too
early, is the beginning of a program, and each terminal that a note lists may come behind it. -/
def Fault.IsEarly (fault : Fault) (uri text : String) : Prop :=
  ∃ rejection report location front character back, fault = .rejected uri text rejection ∧
    fault.report? = some report ∧ report.diagnostic.location = some location ∧
    location.file = uri ∧ location.character? text = some character ∧
    text.toList = front ++ character :: back ∧
    location.line = (Position.first.afterAll front).line ∧
    location.column = (Position.first.afterAll front).column ∧
    Program.Begins (rejection.sound text.toList front) ∧
    ∀ note, report.diagnostic.note = some note → ∃ labels, labels ≠ [] ∧
      note = "expected one of: " ++ ", ".intercalate labels ∧
      ∀ label ∈ labels, Program.Continues (rejection.sound text.toList front) label

theorem Program.isEarly_of_ofText {keepsDocumentation : Bool} {uri text : String} {fault : Fault}
    (rejected : ofText keepsDocumentation uri text = .error fault) : fault.IsEarly uri text := by
  rw [ofText_eq_parse] at rejected
  cases parsed : parse text with
  | ok program =>
      rw [parsed] at rejected
      cases rejected
  | error rejection =>
      rw [parsed] at rejected
      cases rejected
      rcases exists_sound parsed with
        ⟨front, character, back, whole, other, place, begins, expects⟩
      rcases rejection.location_eq uri with ⟨file, line, column⟩
      rw [place] at line column
      refine ⟨rejection, rejection.report uri text, rejection.location uri, front, character, back,
        rfl, rfl, rfl, file, Location.character?_eq_some whole other line column, whole, line,
        column, begins, ?_⟩
      intro note noted
      have noted : rejection.note? = some note := noted
      rw [rejection.note?_eq] at noted
      rcases Option.bind_eq_some_iff.mp noted with ⟨expected, isExpected, noted⟩
      rcases Expectation.note?_eq_some noted with ⟨nonempty, written⟩
      exact ⟨expected.labels, nonempty, written, expects expected isExpected⟩

/-- A brace that closes nothing: what stands before it is a program, which may end there or go on
with another statement. -/
theorem Program.isEarly_of_brace :
    Fault.IsEarly (.rejected "main" "type Name: Text \x7d"
      (.unexpectedToken ['\x7d'] ⟨⟨1, 17⟩, ⟨1, 18⟩⟩
        ⟨true, [.docComment, .fromWord, .interfaceWord, .serviceWord, .typeWord]⟩))
      "main" "type Name: Text \x7d" :=
  @isEarly_of_ofText true "main" "type Name: Text \x7d" _ (by cbv)

end ServiceModules
