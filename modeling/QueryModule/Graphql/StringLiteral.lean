import QueryModule.Text.Characters
import QueryModule.Text.Lines
import QueryModule.Text.Quoted
import QueryModule.Text.Utf8

/-!
# The text that a string literal denotes

A quoted string denotes its characters with the escapes undone. A block string denotes its lines
freed from the indentation that all of them share, and from blank lines at the start and at the end.
-/

namespace QueryModule.Graphql

open QueryModule.Text

/-- Why the content of a quoted string denotes no text. -/
inductive StringError where
  /-- A backslash in front of a character that has no escape. -/
  | badEscape (c : Char)
  /-- A numeric escape that the string ends in. -/
  | shortNumber (found : List Char)
  /-- A numeric escape that is not the number of a character. -/
  | badNumber (digits : List Char)
  deriving DecidableEq, Repr

/-- What the error says of the string. -/
def StringError.message : StringError → String
  | .badEscape c => s!"bad escaped char {quotedChar c}"
  | .shortNumber found =>
    s!"\\u must have 4 characters after it, only found '{String.ofList found}'"
  | .badNumber digits => s!"{String.ofList digits} is not a valid unicode code point"

/-- The character with the number that four characters denote. A plus sign may stand for the first
digit, and the numbers of surrogates are no characters. -/
def numberedChar? (digits : List Char) : Option Char :=
  let digits := if ['+'].isPrefixOf digits then digits.drop 1 else digits
  match hexNumber? digits with
  | some n => if n.isValidChar then some (Char.ofNat n) else none
  | none => none

/-- The character that a backslash in front of `c` denotes, unless it is a numeric escape. -/
def escapedChar? (c : Char) : Option Char :=
  if c = '"' || c = '\\' || c = '/' then some c
  else if c = 'b' then some (Char.ofNat 0x10)
  else if c = 'f' then some (Char.ofNat 0x0C)
  else if c = 'n' then some '\n'
  else if c = 'r' then some '\r'
  else if c = 't' then some '\t'
  else none

/-- The text that the content of a quoted string denotes. -/
def unescape : List Char → Except StringError (List Char)
  | [] => .ok []
  | '\\' :: 'u' :: a :: b :: c :: d :: rest =>
    match numberedChar? [a, b, c, d] with
    | some x => (unescape rest).map (x :: ·)
    | none => .error (.badNumber [a, b, c, d])
  | '\\' :: 'u' :: found => .error (.shortNumber found)
  | '\\' :: c :: rest =>
    match escapedChar? c with
    | some x => (unescape rest).map (x :: ·)
    | none => .error (.badEscape c)
  | c :: rest => (unescape rest).map (c :: ·)

/-- How far a text is indented: the bytes of the white space at its start. -/
def indentation (line : List Char) : Nat :=
  Utf8.byteSize (line.takeWhile isBlank)

/-- Does the line consist of white space? -/
def isBlankLine (line : List Char) : Bool := line.all isBlank

/-- A line without so many bytes at its start. -/
def dropIndentation : Nat → List Char → List Char
  | _, [] => []
  | 0, line => line
  | n + 1, c :: rest => dropIndentation (n + 1 - c.utf8Size) rest

/-- The least of some numbers, or zero when there are none. -/
def least : List Nat → Nat
  | [] => 0
  | [n] => n
  | n :: rest => min n (least rest)

/-- The lines of a block string, where only the first one keeps its indentation. Lines shorter than
the shared indentation stay as they are. -/
def dedentLines : List (List Char) → List (List Char)
  | [] => []
  | first :: others =>
    let shared := least ((others.filter (!isBlankLine ·)).map indentation)
    let dedent (line : List Char) : List Char :=
      if shared ≤ Utf8.byteSize line then dropIndentation shared line else line
    first :: others.map dedent

/-- A list without the elements at its two ends for which `p` holds. -/
def trimEnds (p : α → Bool) (l : List α) : List α :=
  ((l.dropWhile p).reverse.dropWhile p).reverse

/-- Three quotation marks. -/
def tripleMark : List Char := ['"', '"', '"']

/-- The text that the content of a block string denotes. -/
def unindent (content : List Char) : List Char :=
  let kept := trimEnds isBlankLine (dedentLines (lines content))
  ['\n'].intercalate (kept.map (replaceAll ('\\' :: tripleMark) tripleMark))

end QueryModule.Graphql
