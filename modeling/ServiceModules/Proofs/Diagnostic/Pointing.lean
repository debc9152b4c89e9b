import ServiceModules.Proofs.Diagnostic.Snippet
import ServiceModules.Proofs.Draft.Rejection
import ServiceModules.Proofs.Draft.Undocumented
import ServiceModules.Proofs.Module.Excerpts

/-!
Reports that point into a text. The location of such a report names a character of the text, and the
rendering shows this character with carets below it. What is said of the text there is what stands
there: the path of an import that leads nowhere, the name that a module does not declare, the token
that was not expected.
-/

namespace ServiceModules

/-- The report is about a place in the text of the module `uri`, and shows it. -/
structure Report.PointsInto (report : Report) (uri text : String) (location : Location) : Prop where
  located : report.diagnostic.location = some location
  file : location.file = uri
  source : report.source = some text
  starts : ∃ character, location.character? text = some character
  /-- The carets begin under the first character of the location and end before its line does. -/
  shown : ∃ lines line offset count,
    report.render false = String.ofList (List.intercalate ['\n'] lines) ∧
    Diagnostic.Shows lines location line offset count ∧
    (Text.split '\n' text.toList)[(location.line - 1).toNat]? = some line ∧
    (offset : Int) + 1 = location.column ∧ 1 ≤ count ∧ offset + count ≤ line.length

namespace Report

variable {report : Report} {uri text : String}

theorem exists_shown {location : Location} {line : List Char}
    (located : report.diagnostic.location = some location) (source : report.source = some text)
    (found : Diagnostic.sourceLine? [(location.file, text)] location = some line) :
    ∃ lines, report.render false = String.ofList (List.intercalate ['\n'] lines) ∧
      Diagnostic.Shows lines location line (Diagnostic.caretOffset location)
        (Diagnostic.caretCount location line) := by
  have sources : report.sources = [(location.file, text)] := by
    simp only [Report.sources, located, source]
  refine ⟨_, Diagnostic.render_false .., ?_⟩
  rw [sources]
  exact Diagnostic.shows_of_sourceLine? located found

theorem pointsInto_of_carets {location : Location} {front tail : List Char}
    (located : report.diagnostic.location = some location) (file : location.file = uri)
    (source : report.source = some text) (whole : text.toList = front ++ tail)
    (visible : Text.IsVisible tail)
    (row : location.line = (Position.first.afterAll front).line)
    (column : location.column = (Position.first.afterAll front).column)
    (ends : location.column < location.endColumn →
      location.endLine = 0 ∨ location.endLine = location.line →
      ∃ piece, piece <+: tail ∧ '\n' ∉ piece ∧
        location.endColumn = location.column + piece.length) :
    report.PointsInto uri text location := by
  rcases Diagnostic.exists_carets whole visible row column ends with
    ⟨line, found, placed, offset, some, within⟩
  rcases exists_shown located source found with ⟨lines, rendered, shows⟩
  rcases visible.exists_head with ⟨character, rest, rfl, other⟩
  exact
    { located := located
      file := file
      source := source
      starts := ⟨character, Location.character?_eq_some whole other row column⟩
      shown := ⟨lines, line, _, _, rendered, shows, placed, offset, some, within⟩ }

theorem pointsInto_of_span {span : Span}
    (located : report.diagnostic.location = some (.ofSpan uri span))
    (source : report.source = some text) (excerpt : span.IsExcerpt text.toList) :
    report.PointsInto uri text (.ofSpan uri span) := by
  rcases excerpt with ⟨piece, visible, front, back, whole, rfl⟩
  refine pointsInto_of_carets located rfl source whole (visible.append back) rfl rfl ?_
  intro _ ended
  have rows := Position.line_afterAll (Position.first.afterAll front) piece
  have single : '\n' ∉ piece := by
    intro member
    have positive : 0 < piece.count '\n' := List.count_pos_iff.mpr member
    simp only [Location.ofSpan, Span.ofText] at ended
    omega
  refine ⟨piece, List.prefix_append piece back, single, ?_⟩
  simp only [Location.ofSpan, Span.ofText, Position.afterAll_of_not_mem single]
  omega

theorem pointsInto_of_position {position : Position}
    (located : report.diagnostic.location = some (.ofPosition uri position))
    (source : report.source = some text) (opens : position.Opens text.toList) :
    report.PointsInto uri text (.ofPosition uri position) := by
  rcases opens with ⟨front, piece, whole, rfl, visible⟩
  refine pointsInto_of_carets located rfl source whole visible rfl rfl ?_
  intro later
  simp only [Location.ofPosition] at later
  omega

end Report

/-! ## Faults -/

/-- What a fault says of a text at `location` is what stands there. -/
def Fault.Cites (text : String) (location : Location) : Fault → Prop
  | .rejected uri _ (.unexpectedToken token span _) =>
    location = .ofSpan uri span ∧ span.Covers text.toList token
  | .unlocated request =>
    ∃ span, location = .ofSpan request.missing.requester span ∧
      span.Covers text.toList request.missing.path.text.toList
  | .undeclared symbol =>
    ∃ span rest, location = .ofSpan location.file span ∧
      span.Covers text.toList (symbol.name.toList ++ rest)
  | _ => True

def Fault.PointsInto (fault : Fault) (uri text : String) : Prop :=
  ∃ report location, fault.report? = some report ∧ report.PointsInto uri text location ∧
    fault.Cites text location

/-! ## Faults in a text -/

def Rejection.Cites (text : List Char) : Rejection → Prop
  | .unexpectedToken token span _ => span.Covers text token
  | .unexpectedCharacter _ position => position.Opens text
  | .unexpectedEnd lastToken _ => lastToken.IsExcerpt text

theorem Program.cites_of_parse {text : String} {rejection : Rejection}
    (rejected : parse text = .error rejection) : rejection.Cites text.toList := by
  have begins : (Reading.start text.toList).HasRead text.toList [] := ⟨rfl, rfl⟩
  have unknown : Draft.empty.finish? = none → ∃ piece, noToken.Covers text.toList piece := nofun
  rcases Reading.exists_fails ⟨[], begins⟩ unknown rejected with
    ⟨later, last, reaches, fails, known⟩
  rcases reaches.exists_between with ⟨read, whole, placed⟩
  have place : later.HasRead text.toList read := ⟨whole, placed⟩
  cases fails with
  | ended _ unfinished => exact known unfinished
  | @refused draft position blanks rest found _ gapped scanned =>
      have nonempty := List.length_pos_iff.mp (Lexeme.length_pos_of_scan scanned)
      exact (place.covers nonempty gapped).mono (place.token draft).isPrefix
  | @unsought draft position blanks rest found _ gapped _ scanned =>
      have nonempty := List.length_pos_iff.mp (Lexeme.length_pos_of_scan scanned)
      exact (place.covers nonempty gapped).mono (place.token draft).isPrefix
  | @unknown draft position blanks rest character _ gapped =>
      refine ⟨read ++ blanks, character :: rest, ?_, ?_,
        Text.isVisible_behind_gap (List.cons_ne_nil _ _) gapped⟩
      · rw [List.append_assoc]
        exact whole
      · rw [Position.afterAll_append, ← placed]

theorem Rejection.Cites.pointsInto {rejection : Rejection} {text : String}
    (cites : rejection.Cites text.toList) (uri : String) :
    (Fault.rejected uri text rejection).PointsInto uri text := by
  refine ⟨_, rejection.location uri, rfl, ?_, ?_⟩
  · cases rejection with
    | unexpectedToken token span expected =>
        exact Report.pointsInto_of_span rfl rfl ⟨token, cites⟩
    | unexpectedCharacter character position => exact Report.pointsInto_of_position rfl rfl cites
    | unexpectedEnd lastToken expected => exact Report.pointsInto_of_span rfl rfl cites
  · cases rejection with
    | unexpectedToken token span expected => exact ⟨rfl, cites⟩
    | unexpectedCharacter character position => trivial
    | unexpectedEnd lastToken expected => trivial

theorem Module.pointsInto_of_ofText {keepsDocumentation : Bool} {uri text : String} {fault : Fault}
    (failed : ofText keepsDocumentation uri text = .error fault) : fault.PointsInto uri text := by
  rw [ofText] at failed
  cases read : Program.ofText keepsDocumentation uri text with
  | error rejected =>
      rw [read] at failed
      cases failed
      rw [Program.ofText_eq_parse] at read
      split at read
      · next rejection parsed =>
        cases read
        exact (Program.cites_of_parse parsed).pointsInto uri
      · cases read
  | ok program =>
      rw [read] at failed
      simp only [Program.symbolTable] at failed
      split at failed
      · next clash clashes =>
        split at clashes
        · next name clashing =>
          cases clashes
          cases failed
          rcases Binding.exists_of_clash? clashing with ⟨binding, member, placed⟩
          have excerpt := (Program.quotes_of_ofText read).of_mem_bindings member
          exact ⟨_, _, rfl, Report.pointsInto_of_span placed rfl excerpt, trivial⟩
        · cases clashes
      · cases failed

end ServiceModules
