import QueryModule.Source.Location
import QueryModule.Text.Quoted

/-!
# Tokens

The smallest meaningful pieces of a GraphQL source, and the way a source looks to the parser: a
sequence of tokens that ends either where the source ends or at the first place where no token can be
read. The parser thus sees a broken source up to the breaking point, and whatever stands before it
may fail first.
-/

namespace QueryModule.Graphql

/-- The kinds of tokens. -/
inductive TokenKind where
  | punctuator
  | name
  | intValue
  | floatValue
  | stringValue
  | blockString
  deriving DecidableEq, Repr

/-- The name of a kind in messages. -/
def TokenKind.label : TokenKind → String
  | .punctuator => "Punctuator"
  | .name => "Name"
  | .intValue => "IntValue"
  | .floatValue => "FloatValue"
  | .stringValue => "StringValue"
  | .blockString => "BlockString"

/-- A token: its kind, its text as it stands in the source, and where it starts. -/
structure Token where
  kind : TokenKind
  text : String
  position : Position
  deriving DecidableEq, Repr

/-- Why no token can be read at some place. -/
inductive LexicalError where
  | unexpectedCharacter (c : Char)
  /-- A point that is not the first of three. -/
  | bareDot
  | malformedInt (text : String)
  | malformedFloat (text : String)
  | unterminatedString
  | unterminatedBlockString
  /-- More brackets are open at once than allowed. -/
  | tooDeep
  deriving DecidableEq, Repr

/-- What the error says of the source. -/
def LexicalError.message : LexicalError → String
  | .unexpectedCharacter c => s!"unexpected character {Text.quotedChar c}"
  | .bareDot => "bare dot '.' is not supported, only \"...\""
  | .malformedInt text => s!"unsupported integer {Text.quoted text}"
  | .malformedFloat text => s!"unsupported float {Text.quoted text}"
  | .unterminatedString => "unterminated string value"
  | .unterminatedBlockString => "unterminated block string value"
  | .tooDeep => "Recursion limit exceeded"

/-- A source as a sequence of tokens. -/
inductive Tokens where
  /-- A token and what follows it. -/
  | next (token : Token) (rest : Tokens)
  /-- The end of the source. -/
  | finished (position : Position)
  /-- A place where no token can be read. -/
  | broken (position : Position) (error : LexicalError)
  deriving DecidableEq, Repr

namespace Tokens

/-- How many tokens there are. -/
def size : Tokens → Nat
  | next _ rest => rest.size + 1
  | finished _ => 0
  | broken _ _ => 0

/-- Where the first token, the end or the breaking point is. -/
def position : Tokens → Position
  | next token _ => token.position
  | finished p => p
  | broken p _ => p

/-- Can no token be read at the front? -/
def isBroken : Tokens → Bool
  | broken _ _ => true
  | _ => false

/-- Is the first token this punctuator? -/
def startsWith (text : String) : Tokens → Bool
  | next token _ => token.kind = .punctuator && token.text = text
  | _ => false

/-- Is the first token this name? -/
def startsWithName (text : String) : Tokens → Bool
  | next token _ => token.kind = .name && token.text = text
  | _ => false

end Tokens

end QueryModule.Graphql
