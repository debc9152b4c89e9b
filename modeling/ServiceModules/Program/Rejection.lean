import ServiceModules.Text.Quoted
import ServiceModules.Token.Terminal

/-!
Why a text is not a program. A rejection names the first token, character or end that cannot
follow what stands before it, and the terminals that could.
-/

namespace ServiceModules

/-- What may come next: the end of the text, and tokens of some terminals in the order of their
labels. -/
structure Expectation where
  atEnd : Bool
  terminals : List Terminal
deriving DecidableEq, Repr, Inhabited

namespace Expectation

def labels (expectation : Expectation) : List String :=
  (if expectation.atEnd then ["$END"] else []) ++ expectation.terminals.map Terminal.label

def note? (expectation : Expectation) : Option String :=
  if expectation.labels.isEmpty then none
  else some ("expected one of: " ++ ", ".intercalate expectation.labels)

end Expectation

inductive Rejection where
  | unexpectedToken (text : List Char) (span : Span) (expected : Expectation)
  | unexpectedCharacter (character : Char) (position : Position)
  | unexpectedEnd (lastToken : Span) (expected : Expectation)
deriving DecidableEq, Repr

namespace Rejection

def message : Rejection → String
  | .unexpectedToken text _ _ =>
    "Parse error: unexpected token " ++ String.ofList (Text.quoted text)
  | .unexpectedCharacter character _ =>
    "Parse error: unexpected character " ++ String.ofList (Text.quoted [character])
  | .unexpectedEnd _ _ => "Parse error: unexpected end of input"

def note? : Rejection → Option String
  | .unexpectedToken _ _ expected => expected.note?
  | .unexpectedCharacter _ _ => none
  | .unexpectedEnd _ expected => expected.note?

end Rejection

end ServiceModules
