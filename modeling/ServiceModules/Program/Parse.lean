import ServiceModules.Draft.Step
import ServiceModules.Program.Rejection
import ServiceModules.Token.Scan

/-!
Reading a program. The text is read token by token: blanks and comments are skipped, the next
token is looked for among the terminals that the draft seeks, and the draft takes it. The first
thing that the draft cannot take rejects the text.
-/

namespace ServiceModules

namespace Draft

def expected (draft : Draft) : Expectation :=
  { atEnd := draft.finish?.isSome
    terminals := Terminal.all.filter draft.accepts }

/-- What was expected in place of a token that the draft sought and did not accept. Such a token
ends the documentation before it, so that no further line of documentation is expected. -/
def expectedInstead (draft : Draft) : Expectation :=
  if draft.isDocumented then
    { draft.expected with terminals := draft.expected.terminals.erase .docComment }
  else draft.expected

theorem length_drop_lt {characters rest : List Char} {character : Char} {count : Nat}
    (split : characters.drop count = character :: rest) {taken : Nat} (positive : 0 < taken) :
    ((character :: rest).drop taken).length < characters.length := by
  have shorter := congrArg List.length split
  simp only [List.length_drop, List.length_cons] at shorter ⊢
  omega

/-- Reads the rest of a text. `last` is the span of the last token and `position` the place where
`characters` begin. -/
def read (draft : Draft) (last : Span) (position : Position) (characters : List Char)
    (keepsDocumentation : Bool := true) : Except Rejection Program :=
  let gap := Lexeme.gap characters
  let start := position.afterAll gap
  match remaining : characters.drop gap.length with
  | [] =>
    match draft.finish? with
    | some program => .ok program
    | none => .error (.unexpectedEnd last draft.expected)
  | character :: rest =>
    match scanned : Lexeme.scan draft.sought (character :: rest) with
    | some found =>
      let span := Span.ofText start found.text
      match draft.step ⟨found.terminal, found.text, span⟩ keepsDocumentation with
      | some next =>
        have : ((character :: rest).drop found.text.length).length < characters.length :=
          length_drop_lt remaining (Lexeme.length_pos_of_scan scanned)
        read next span span.stop ((character :: rest).drop found.text.length) keepsDocumentation
      | none => .error (.unexpectedToken found.text span draft.expectedInstead)
    | none =>
      match Lexeme.scan Terminal.all (character :: rest) with
      | some found =>
        .error (.unexpectedToken found.text (Span.ofText start found.text) draft.expected)
      | none => .error (.unexpectedCharacter character start)
termination_by characters.length
decreasing_by assumption

end Draft

namespace Program

def noToken : Span := ⟨Position.first, ⟨0, 0⟩⟩

def parse (text : String) (keepsDocumentation : Bool := true) : Except Rejection Program :=
  Draft.empty.read noToken Position.first text.toList keepsDocumentation

end Program

end ServiceModules
