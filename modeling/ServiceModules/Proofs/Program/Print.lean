import ServiceModules.Program.Basic
import ServiceModules.Text.Split
import ServiceModules.Token.Lexeme

/-!
Printing programs. The tokens of a program are written in the order of the grammar, with a blank
between two tokens; every line of documentation stands on a line of its own before its owner. A
program is well formed when its text can say what it is.
-/

namespace ServiceModules

namespace Token

def ofName (name : String) : Token := ⟨.name, name.toList, default⟩

def ofWord (terminal : Terminal) : Token := ⟨terminal, terminal.spelling?.getD [], default⟩

def ofPath (path : ImportPath) : Token := ⟨.importPath, path.text.toList, default⟩

def ofLine (line : List Char) : Token := ⟨.docComment, '/' :: '/' :: '/' :: ' ' :: line, default⟩

def ofDocumentation (documentation : String) : List Token :=
  (Text.split '\n' documentation.toList).map ofLine

def separated : List (List Token) → List Token
  | [] => []
  | first :: rest => first ++ rest.flatMap fun tokens => ofWord .comma :: tokens

/-- What stands between a token and the next one: documentation has a line of its own. -/
def separator (token next : Token) : Char :=
  if token.terminal = .docComment ∨ next.terminal = .docComment then '\n' else ' '

def layout : List Token → List Char
  | [] => []
  | [token] => token.text
  | token :: next :: rest => token.text ++ token.separator next :: layout (next :: rest)

end Token

/-! ## Tokens of programs -/

open Token

def TypeReference.token (reference : TypeReference) : Token := ofName reference.name

mutual
def TypeExpression.tokens : TypeExpression → List Token
  | .named reference => [reference.token]
  | .record fields _ => ofWord .leftBrace :: (Field.listTokens fields ++ [ofWord .rightBrace])

def Field.tokens : Field → List Token
  | .mk name documentation type _ =>
    (documentation.map ofDocumentation).getD [] ++ ofName name :: ofWord .colon :: type.tokens

def Field.listTokens : List Field → List Token
  | [] => []
  | field :: rest => field.tokens ++ Field.listTokens rest
end

def Operation.tokens (operation : Operation) : List Token :=
  (operation.documentation.map ofDocumentation).getD [] ++
    ofName operation.name :: ofWord .leftParenthesis ::
    (operation.request.toList.map TypeReference.token ++ ofWord .rightParenthesis ::
      operation.response.toList.flatMap fun response => [ofWord .arrow, response.token])

def DeclarationBody.tokens : DeclarationBody → List Token
  | .type expression => ofWord .colon :: expression.tokens
  | .interface operations =>
    ofWord .leftBrace :: (operations.flatMap Operation.tokens ++ [ofWord .rightBrace])
  | .service embeds implements =>
    ofWord .leftBrace ::
      ((embeds.flatMap fun embedded => [ofWord .embedsWord, embedded.token]) ++
        ((if implements = [] then []
          else ofWord .implementsWord :: separated (implements.map fun served => [served.token])) ++
        [ofWord .rightBrace]))

def DeclarationKind.terminal : DeclarationKind → Terminal
  | .type => .typeWord
  | .interface => .interfaceWord
  | .service => .serviceWord

def Declaration.tokens (declaration : Declaration) : List Token :=
  (declaration.documentation.map ofDocumentation).getD [] ++
    ofWord declaration.kind.terminal :: ofName declaration.name :: declaration.body.tokens

def ImportTarget.tokens (target : ImportTarget) : List Token :=
  ofName target.name ::
    target.renamed.toList.flatMap fun renamed => [ofWord .asWord, ofName renamed]

def ImportStatement.tokens (statement : ImportStatement) : List Token :=
  ofWord .fromWord :: ofPath statement.path :: ofWord .importWord ::
    separated (statement.targets.map ImportTarget.tokens)

def Statement.tokens : Statement → List Token
  | .importing statement => statement.tokens
  | .declaring declaration => declaration.tokens

namespace Program

def tokens (program : Program) : List Token := program.statements.flatMap Statement.tokens

def print (program : Program) : String := String.ofList (layout program.tokens)

end Program

/-! ## Well-formed programs -/

/-- Whether a text is a name, keywords included. -/
def Lexeme.isIdentifier (name : String) : Bool :=
  beginsName name.toList && name.toList.all isNameCharacter

/-- The words that a declaration can begin with. A field or an operation that has such a name cannot
be documented. -/
def DeclarationKind.words : List String :=
  [DeclarationKind.type.word, DeclarationKind.interface.word, DeclarationKind.service.word]

def DeclarationKind.admits (name : String) (documentation : Option String) : Bool :=
  documentation.isNone || !(words.contains name)

def TypeReference.isWellFormed (reference : TypeReference) : Bool :=
  Lexeme.isIdentifier reference.name

mutual
def TypeExpression.isWellFormed : TypeExpression → Bool
  | .named reference => reference.isWellFormed
  | .record fields _ => Field.listIsWellFormed fields

def Field.isWellFormed : Field → Bool
  | .mk name documentation type _ =>
    Lexeme.isIdentifier name && DeclarationKind.admits name documentation && type.isWellFormed

def Field.listIsWellFormed : List Field → Bool
  | [] => true
  | field :: rest => field.isWellFormed && Field.listIsWellFormed rest
end

def Operation.isWellFormed (operation : Operation) : Bool :=
  Lexeme.isIdentifier operation.name &&
    DeclarationKind.admits operation.name operation.documentation &&
    operation.request.all TypeReference.isWellFormed &&
    operation.response.all TypeReference.isWellFormed

def DeclarationBody.isWellFormed : DeclarationBody → Bool
  | .type expression => expression.isWellFormed
  | .interface operations => operations.all Operation.isWellFormed
  | .service embeds implements =>
    embeds.all TypeReference.isWellFormed && implements.all TypeReference.isWellFormed

def Declaration.isWellFormed (declaration : Declaration) : Bool :=
  Lexeme.isIdentifier declaration.name && declaration.body.isWellFormed

def ImportTarget.isWellFormed (target : ImportTarget) : Bool :=
  Lexeme.isIdentifier target.name && target.renamed.all Lexeme.isIdentifier

def ImportPath.isWellFormed (path : ImportPath) : Bool :=
  !path.parts.isEmpty && path.parts.all Lexeme.isIdentifier

def ImportStatement.isWellFormed (statement : ImportStatement) : Bool :=
  statement.path.isWellFormed && !statement.targets.isEmpty &&
    statement.targets.all ImportTarget.isWellFormed

def Statement.isWellFormed : Statement → Bool
  | .importing statement => statement.isWellFormed
  | .declaring declaration => declaration.isWellFormed

def Program.isWellFormed (program : Program) : Bool :=
  program.statements.all Statement.isWellFormed

end ServiceModules
