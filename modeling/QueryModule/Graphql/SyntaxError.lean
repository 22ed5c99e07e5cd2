import QueryModule.Graphql.Number
import QueryModule.Graphql.StringLiteral
import QueryModule.Graphql.Token

/-!
# Syntax errors

Where a source stops being a document, and why. The position is that of the first token that cannot
continue the document, of the end of the source, or of the place where no token can be read. Some
errors have a position only.
-/

namespace QueryModule.Graphql

/-- Why a source is no document. -/
inductive SyntaxCause where
  /-- A token that does not fit. -/
  | token (kind : TokenKind) (text : String)
  | endOfInput
  | lexical (error : LexicalError)
  | badString (error : StringError)
  | badNumber (error : NumberError)
  /-- A name after `on` in a directive definition that is no directive location. -/
  | badDirectiveLocation
  /-- An operation kind that a schema definition maps twice. -/
  | duplicateRoot (operation : String)
  deriving DecidableEq, Repr

/-- A place in a source and, mostly, the reason why the document cannot go on there. -/
structure SyntaxError where
  position : Position
  cause : Option SyntaxCause
  deriving DecidableEq, Repr

/-- The part of a text in front of its first line feed. -/
def firstLine (text : String) : String :=
  String.ofList (text.toList.takeWhile (· != '\n'))

/-- The reason in words. A token is shown with its kind; of one that spans several lines only the
first is shown. -/
def SyntaxCause.message : SyntaxCause → String
  | .token kind text => "Unexpected " ++ firstLine ("`" ++ text ++ "[" ++ kind.label ++ "]`")
  | .endOfInput => "Unexpected end of input"
  | .lexical .tooDeep => LexicalError.tooDeep.message
  | .lexical e => "Unexpected " ++ e.message
  | .badString e => "Unexpected " ++ e.message
  | .badNumber e => e.message
  | .badDirectiveLocation => "invalid directive location"
  | .duplicateRoot operation => "Unexpected duplicate `" ++ operation ++ "` operation"

/-- The error in words: its position, and its reason on a second line. -/
def SyntaxError.message (e : SyntaxError) : String :=
  let place := s!"Parse error at {e.position.line}:{e.position.column}"
  match e.cause with
  | none => place
  | some cause => place ++ "\n" ++ cause.message

end QueryModule.Graphql
