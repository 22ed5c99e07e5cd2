import QueryModule.Graphql.Number

/-!
# Reading tokens

`tokens` cuts a source into tokens. Between tokens it skips white space, commas, byte-order marks and
comments. A token is found by its first character and by how many of the following characters belong
to it, so that each token takes at least one character and the reading comes to an end.

Brackets may be open at most fifty deep; the opening bracket that would exceed this is no token.
-/

namespace QueryModule.Graphql

/-- How many brackets may be open at once. -/
def maxNesting : Nat := 50

/-- Can `c` start a name? -/
def isNameStart (c : Char) : Bool := c == '_' || c.isAlpha

/-- Can `c` continue a name? -/
def isNameChar (c : Char) : Bool := c == '_' || c.isAlphanum

/-- The punctuators that consist of one character. -/
def isPunctuator (c : Char) : Bool :=
  ['!', '$', ':', '=', '@', '|', '&', '(', ')', '[', ']', '\x7b', '\x7d'].contains c

/-- The brackets that open. -/
def isOpener (c : Char) : Bool := c == '(' || c == '[' || c == '\x7b'

/-- The brackets that close. -/
def isCloser (c : Char) : Bool := c == ')' || c == ']' || c == '\x7d'

/-- How many characters of a quoted string are left, its closing mark included. A line feed may not
be in it, not even behind a backslash. -/
def quotedLength? (escaped : Bool) : List Char → Option Nat
  | [] => none
  | c :: rest =>
    if c = '"' && !escaped then some 1
    else if c = '\n' then none
    else (quotedLength? (!escaped && c == '\\') rest).map (· + 1)

/-- How many characters of a block string are left, its closing marks included. Three marks behind a
backslash do not close it. -/
def blockLength? (escaped : Bool) : List Char → Option Nat
  | '"' :: '"' :: '"' :: rest =>
    if escaped then (blockLength? false rest).map (· + 3) else some 3
  | c :: rest => (blockLength? (c == '\\') rest).map (· + 1)
  | [] => none

/-- The kind of the token that starts with `c`, and how many of the characters behind `c` belong to
it. -/
def lexeme (c : Char) (rest : List Char) : Except LexicalError (TokenKind × Nat) :=
  if isPunctuator c then .ok (.punctuator, 0)
  else if c = '.' then
    if ['.', '.'].isPrefixOf rest then .ok (.punctuator, 2) else .error .bareDot
  else if isNameStart c then .ok (.name, (rest.takeWhile isNameChar).length)
  else if c = '-' || c.isDigit then
    let tail := rest.takeWhile (!endsNumber ·)
    (numberKind (c :: tail)).map (·, tail.length)
  else if c = '"' then
    if ['"', '"'].isPrefixOf rest then
      match blockLength? false (rest.drop 2) with
      | some n => .ok (.blockString, n + 2)
      | none => .error .unterminatedBlockString
    else
      match quotedLength? false rest with
      | some n => .ok (.stringValue, n)
      | none => .error .unterminatedString
  else .error (.unexpectedCharacter c)

/-- The position behind a skipped character. A tab is eight columns wide; a carriage return and a
byte-order mark have no width. -/
def skip (p : Position) (c : Char) : Position :=
  if c = '\n' then ⟨p.line + 1, 1⟩
  else if c = '\t' then ⟨p.line, p.column + 8⟩
  else if c = ' ' || c = ',' then ⟨p.line, p.column + 1⟩
  else p

/-- Is the character skipped between tokens? -/
def isSkipped (c : Char) : Bool :=
  c == ' ' || c == ',' || c == '\t' || c == '\n' || c == '\r' || c.toNat == 0xFEFF

/-- Does the character end a comment? -/
def endsComment (c : Char) : Bool := c == '\n' || c == '\r'

/-- How many brackets are open behind a token that starts with `c`. -/
def nestingAfter (nesting : Nat) (c : Char) : Nat :=
  if isOpener c then nesting + 1 else if isCloser c then nesting - 1 else nesting

/-- The tokens of the rest of a source, which starts at a position and inside of some brackets. A
comment ends behind the first character that ends a line; one that the source ends in does not move
the position. -/
def tokensFrom (position : Position) (nesting : Nat) : List Char → Tokens
  | [] => .finished position
  | c :: rest =>
    if isSkipped c then tokensFrom (skip position c) nesting rest
    else if c = '#' then
      let tail := rest.dropWhile (!endsComment ·)
      tokensFrom (if tail.isEmpty then position else ⟨position.line + 1, 1⟩) nesting (tail.drop 1)
    else if isOpener c && nesting ≥ maxNesting then .broken position .tooDeep
    else
      match lexeme c rest with
      | .error e => .broken position e
      | .ok (kind, n) =>
        let text := c :: rest.take n
        .next ⟨kind, String.ofList text, position⟩
          (tokensFrom (position.after text) (nestingAfter nesting c) (rest.drop n))
termination_by source => source.length
decreasing_by
  · simp
  · have h : (rest.dropWhile (!endsComment ·)).length ≤ rest.length :=
      (List.dropWhile_sublist _).length_le
    simp only [List.length_drop, List.length_cons]
    omega
  · simp only [List.length_drop, List.length_cons]
    omega

/-- The tokens of a source. -/
def tokens (source : String) : Tokens := tokensFrom Position.start 0 source.toList

end QueryModule.Graphql
