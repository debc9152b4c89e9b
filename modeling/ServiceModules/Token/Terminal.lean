import ServiceModules.Source.Position

/-!
Terminals of the service language and the tokens that carry them. `label` is the name by which a
diagnostic calls a terminal; `all` lists the terminals in the order of their labels.
-/

namespace ServiceModules

inductive Terminal where
  | asWord
  | colon
  | comma
  | docComment
  | embedsWord
  | fromWord
  | implementsWord
  | importWord
  | importPath
  | interfaceWord
  | leftBrace
  | leftParenthesis
  | name
  | rightBrace
  | rightParenthesis
  | serviceWord
  | typeWord
  | arrow
deriving DecidableEq, Repr, Inhabited

namespace Terminal

def all : List Terminal :=
  [.asWord, .colon, .comma, .docComment, .embedsWord, .fromWord, .implementsWord, .importWord,
    .importPath, .interfaceWord, .leftBrace, .leftParenthesis, .name, .rightBrace,
    .rightParenthesis, .serviceWord, .typeWord, .arrow]

def label : Terminal → String
  | .asWord => "AS"
  | .colon => "COLON"
  | .comma => "COMMA"
  | .docComment => "DOC_COMMENT"
  | .embedsWord => "EMBEDS"
  | .fromWord => "FROM"
  | .implementsWord => "IMPLEMENTS"
  | .importWord => "IMPORT"
  | .importPath => "IMPORT_PATH"
  | .interfaceWord => "INTERFACE"
  | .leftBrace => "LBRACE"
  | .leftParenthesis => "LPAR"
  | .name => "NAME"
  | .rightBrace => "RBRACE"
  | .rightParenthesis => "RPAR"
  | .serviceWord => "SERVICE"
  | .typeWord => "TYPE"
  | .arrow => "__ANON_0"

/-- The only text of a keyword or of a punctuation mark. Names, import paths and documentation
comments have many texts. -/
def spelling? : Terminal → Option (List Char)
  | .asWord => some ['a', 's']
  | .colon => some [':']
  | .comma => some [',']
  | .docComment => none
  | .embedsWord => some ['e', 'm', 'b', 'e', 'd', 's']
  | .fromWord => some ['f', 'r', 'o', 'm']
  | .implementsWord => some ['i', 'm', 'p', 'l', 'e', 'm', 'e', 'n', 't', 's']
  | .importWord => some ['i', 'm', 'p', 'o', 'r', 't']
  | .importPath => none
  | .interfaceWord => some ['i', 'n', 't', 'e', 'r', 'f', 'a', 'c', 'e']
  | .leftBrace => some ['\x7b']
  | .leftParenthesis => some ['(']
  | .name => none
  | .rightBrace => some ['\x7d']
  | .rightParenthesis => some [')']
  | .serviceWord => some ['s', 'e', 'r', 'v', 'i', 'c', 'e']
  | .typeWord => some ['t', 'y', 'p', 'e']
  | .arrow => some ['-', '>']

end Terminal

structure Token where
  terminal : Terminal
  text : List Char
  span : Span
deriving DecidableEq, Repr, Inhabited

namespace Token

def string (token : Token) : String := String.ofList token.text

end Token

end ServiceModules
