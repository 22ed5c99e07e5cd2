import QueryModule.Decimal.Shortest
import QueryModule.Graphql.Token
import QueryModule.Text.Characters

/-!
# Numbers in a source

A number token runs up to the next character that can follow a number, and is judged as a whole
afterwards: as an integer when it holds neither a point nor an exponent mark, else as a float. A
well-formed number can still denote no value, an integer because it does not fit in 64 bits and a
float because its exponent has a sign and no digits.
-/

namespace QueryModule.Graphql

open QueryModule.Decimal (Binary64 Magnitude)
open QueryModule.Text (natOfDigits)

/-- The characters that end a number: white space, commas, comments and punctuators. -/
def endsNumber (c : Char) : Bool :=
  [' ', '\n', '\r', '\t', ',', '#', '!', '$', ':', '=', '@', '|', '&', '(', ')', '[', ']',
    '\x7b', '\x7d'].contains c

/-- A text that consists of decimal digits; the empty text does. -/
def allDigits (text : List Char) : Bool := text.all Char.isDigit

/-- An integer: a digit sequence with an optional minus sign and without leading zeros. -/
def isIntText (text : List Char) : Bool :=
  text == ['0'] || text == ['-', '0'] ||
    (!(['0'].isPrefixOf text) && text != ['-'] && !(['-', '0'].isPrefixOf text)
      && allDigits (text.drop 1))

/-- An exponent behind its mark: a sign or a digit from one to eight, then digits. -/
def isExponentText : List Char → Bool
  | [] => false
  | c :: rest => (c == '+' || c == '-' || ('1' ≤ c && c ≤ '8')) && allDigits rest

/-- The digits behind the point; there is at least one. -/
def isFractionText (text : List Char) : Bool := !text.isEmpty && allDigits text

/-- The text before and behind the last character for which `p` holds. -/
def splitLast? (p : Char → Bool) (text : List Char) : Option (List Char × List Char) :=
  let tail := (text.reverse.takeWhile (!p ·)).reverse
  if tail.length < text.length then some (text.take (text.length - tail.length - 1), tail)
  else none

/-- Does the character introduce an exponent? -/
def isExponentMark (c : Char) : Bool := c == 'e' || c == 'E'

/-- The parts of a number: before the point, behind it, and behind the exponent mark. -/
structure NumberParts where
  whole : List Char
  fraction : Option (List Char)
  exponent : Option (List Char)
  deriving DecidableEq, Repr

/-- The parts of a number, cut at the last exponent mark and at the last point before it. -/
def numberParts (text : List Char) : NumberParts :=
  let (head, exponent) :=
    match splitLast? isExponentMark text with
    | some (head, exponent) => (head, some exponent)
    | none => (text, none)
  match splitLast? (· == '.') head with
  | some (whole, fraction) => ⟨whole, some fraction, exponent⟩
  | none => ⟨head, none, exponent⟩

/-- A float: an integer with a fraction, an exponent, or both. -/
def isFloatText (text : List Char) : Bool :=
  let parts := numberParts text
  isIntText parts.whole && parts.fraction.all isFractionText && parts.exponent.all isExponentText

/-- The kind of a number token with this text. -/
def numberKind (text : List Char) : Except LexicalError TokenKind :=
  if text.any (fun c => c == '.' || isExponentMark c) then
    if isFloatText text then .ok .floatValue else .error (.malformedFloat (String.ofList text))
  else
    if isIntText text then .ok .intValue else .error (.malformedInt (String.ofList text))

/-- An optional sign and the text behind it. -/
def splitSign : List Char → Bool × List Char
  | '-' :: rest => (true, rest)
  | '+' :: rest => (false, rest)
  | text => (false, text)

/-- Why a well-formed number denotes no value. -/
inductive NumberError where
  | tooLarge
  | tooSmall
  | noExponentDigits
  deriving DecidableEq, Repr

/-- What the error says of the number. -/
def NumberError.message : NumberError → String
  | .tooLarge => "number too large to fit in target type"
  | .tooSmall => "number too small to fit in target type"
  | .noExponentDigits => "invalid float literal"

/-- The value of a well-formed integer, which has to fit in 64 bits. -/
def intOfText (text : List Char) : Except NumberError Int :=
  let (negative, digits) := splitSign text
  let n := natOfDigits digits
  if negative then
    if n ≤ Nat.pow 2 63 then .ok (-(n : Int)) else .error .tooSmall
  else
    if n < Nat.pow 2 63 then .ok n else .error .tooLarge

/-- The value of a well-formed float, rounded to the nearest value of the binary format. -/
def floatOfText (text : List Char) : Except NumberError Binary64 :=
  let parts := numberParts text
  let (negative, whole) := splitSign parts.whole
  let fraction := parts.fraction.getD []
  let digits := natOfDigits (whole ++ fraction)
  let value (exponent : Int) : Binary64 :=
    ⟨negative, Magnitude.ofDecimal digits (exponent - fraction.length)⟩
  match parts.exponent with
  | none => .ok (value 0)
  | some exponent =>
    let (down, places) := splitSign exponent
    if places.isEmpty then .error .noExponentDigits
    else .ok (value (if down then -(natOfDigits places : Int) else natOfDigits places))

end QueryModule.Graphql
