import QueryModule.Graphql.Lexer
import QueryModule.Graphql.SyntaxError

/-!
# Reading a sequence of tokens

A `Parser` takes tokens from the front of a sequence and fails at the first one that does not fit. One
token of look-ahead decides every choice, so that no parser ever takes tokens back. The parsers here
are the ones that operations and schemas share: single tokens, repetition, and values of string and
number tokens. Repetition needs no bound, because it ends as soon as a round takes no token.
-/

namespace QueryModule.Graphql

/-- Takes tokens from the front of a sequence. -/
abbrev Parser (α : Type) := StateT Tokens (Except SyntaxError) α

/-- The error that the first token does not fit, or that there is none. -/
def Tokens.unexpected : Tokens → SyntaxError
  | .next t _ => ⟨t.position, some (.token t.kind t.text)⟩
  | .finished p => ⟨p, some .endOfInput⟩
  | .broken p e => ⟨p, some (.lexical e)⟩

namespace Parser

/-- Fails at a position for a reason. -/
def failAt (position : Position) (cause : Option SyntaxCause) : Parser α :=
  fun _ => .error ⟨position, cause⟩

/-- Takes the first token if `p` accepts it. -/
def tokenThat (p : Token → Bool) : Parser Token := fun ts =>
  match ts with
  | .next t rest => if p t then .ok (t, rest) else .error ts.unexpected
  | _ => .error ts.unexpected

/-- Takes a punctuator. -/
def punctuator (text : String) : Parser Token :=
  tokenThat fun t => t.kind = .punctuator && t.text = text

/-- Takes a name and gives its token. -/
def nameToken : Parser Token := tokenThat fun t => t.kind = .name

/-- Takes a name. -/
def name : Parser String := do return (← nameToken).text

/-- Takes a given name. -/
def keyword (text : String) : Parser Token :=
  tokenThat fun t => t.kind = .name && t.text = text

/-- Does `p` hold of the tokens that are left? -/
def looking (p : Tokens → Bool) : Parser Bool := fun ts => .ok (p ts, ts)

/-- Takes a punctuator if it comes next, and says whether it did. -/
def optionalPunctuator (text : String) : Parser Bool := do
  if ← looking (·.startsWith text) then
    let _ ← punctuator text
    return true
  else
    return false

/-- Reads a construct that has to come next. Where it would start with a bracket that nests too deep,
the source counts as ended. -/
def required (construct : Parser α) : Parser α := fun ts =>
  match ts with
  | .broken p .tooDeep => .error ⟨p, some .endOfInput⟩
  | _ => construct ts

/-- Reads items until `done` holds of the tokens that are left. -/
def repeatUntil (done : Tokens → Bool) (item : Parser α) (ts : Tokens) :
    Except SyntaxError (List α × Tokens) :=
  if done ts then .ok ([], ts)
  else if ts.isBroken then .error ts.unexpected
  else
    match item ts with
    | .error e => .error e
    | .ok (a, rest) =>
      if rest.size < ts.size then
        match repeatUntil done item rest with
        | .error e => .error e
        | .ok (as, rest') => .ok (a :: as, rest')
      else .ok ([a], rest)
termination_by ts.size

/-- Items between two brackets. -/
def between (opener closer : String) (item : Parser α) : Parser (List α) := do
  let _ ← punctuator opener
  let items ← repeatUntil (·.startsWith closer) item
  let _ ← punctuator closer
  return items

/-- One or more items between two brackets. -/
def someBetween (opener closer : String) (item : Parser α) : Parser (List α) := do
  let _ ← punctuator opener
  let first ← item
  let others ← repeatUntil (·.startsWith closer) item
  let _ ← punctuator closer
  return first :: others

/-- One or more items between two brackets, or nothing where the opening one does not come next. -/
def optionalBetween (opener closer : String) (item : Parser α) : Parser (List α) := do
  if ← looking (·.startsWith opener) then someBetween opener closer item else return []

/-- One or more items with a punctuator between each two. -/
def separated (separator : String) (item : Parser α) : Parser (List α) := do
  let first ← item
  let others ← repeatUntil (!·.startsWith separator) (punctuator separator *> item)
  return first :: others

/-- The text that a string token denotes. -/
def stringValue (t : Token) : Parser String :=
  let content (marks : Nat) : List Char :=
    (t.text.toList.drop marks).take (t.text.toList.length - 2 * marks)
  if t.kind = .blockString then return String.ofList (unindent (content 3))
  else
    match unescape (content 1) with
    | .ok text => return String.ofList text
    | .error e => failAt t.position (some (.badString e))

/-- Is the first token a string? -/
def looksAtString : Tokens → Bool
  | .next t _ => t.kind = .stringValue || t.kind = .blockString
  | _ => false

/-- Takes a string and gives its text. -/
def string : Parser String := do
  stringValue (← tokenThat fun t => t.kind = .stringValue || t.kind = .blockString)

/-- The value of an integer token. -/
def intValue (t : Token) : Parser Int :=
  match intOfText t.text.toList with
  | .ok n => return n
  | .error e => failAt t.position (some (.badNumber e))

/-- The value of a float token. -/
def floatValue (t : Token) : Parser Decimal.Binary64 :=
  match floatOfText t.text.toList with
  | .ok x => return x
  | .error e => failAt t.position (some (.badNumber e))

end Parser

/-- Runs a parser on one definition after the other to the end of a source. There is at least one
definition. Once a definition is complete the document could end, so a place where no token can be
read is then an error without a reason. -/
def definitions (definition : Parser α) (ts : Tokens) : Except SyntaxError (List α) := do
  let (first, rest) ← definition ts
  let ended : Tokens → Bool
    | .next _ _ => false
    | _ => true
  let (others, rest) ← Parser.repeatUntil ended definition rest
  match rest with
  | .broken p _ => .error ⟨p, none⟩
  | _ => .ok (first :: others)

end QueryModule.Graphql
