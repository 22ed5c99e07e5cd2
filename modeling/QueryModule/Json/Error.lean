import QueryModule.Decimal.Shortest
import QueryModule.Text.Quoted

/-!
# Errors in JSON texts

Why a text is not the JSON that is expected. A text is read from left to right and the first problem
ends the reading; it lies in the syntax, in the text ending too early, or in a value of a form that
is not wanted at its place.
-/

namespace QueryModule.Json

open QueryModule.Decimal (Binary64 Numeral shortest)

/-- The form of a value, as messages show it. -/
inductive Shape where
  | null
  | boolean (value : Bool)
  | integer (value : Int)
  | float (value : Binary64)
  | string (text : String)
  | sequence
  | map
  deriving DecidableEq, Repr

/-- A decimal in the notation of messages: positional with at least one digit behind the point while
the point stays within sixteen digits and five zeros, else with an exponent of two digits or more. -/
def decimalText (d : Numeral) : String :=
  if 0 < d.point && d.point ≤ 16 then
    if 0 ≤ d.exponent then d.positional ++ ".0" else d.positional
  else if -5 < d.point && d.point ≤ 0 then d.positional
  else
    let mantissa :=
      match d.text with
      | [] => []
      | [c] => [c]
      | c :: rest => c :: '.' :: rest
    let power := d.point - 1
    let sign := if power < 0 then "-" else "+"
    let zero := if power.natAbs < 10 then "0" else ""
    s!"{String.ofList mantissa}e{sign}{zero}{power.natAbs}"

/-- A floating-point value in messages. Of two equally near decimals the even one is shown. -/
def floatText (x : Binary64) : String :=
  let sign := if x.negative then "-" else ""
  match x.magnitude with
  | .infinite => sign ++ "inf"
  | .finite 0 _ => sign ++ "0.0"
  | .finite s e => sign ++ decimalText (shortest .even s e)

/-- A form in words. -/
def Shape.text : Shape → String
  | .null => "null"
  | .boolean value => "boolean `" ++ toString value ++ "`"
  | .integer value => "integer `" ++ toString value ++ "`"
  | .float value => "floating point `" ++ floatText value ++ "`"
  | .string text => "string " ++ Text.quoted text
  | .sequence => "sequence"
  | .map => "map"

/-- Why a text is refused. -/
inductive JsonError where
  | expectedValue
  /-- A word other than `true`, `false` and `null`. -/
  | expectedIdent
  | keyNotString
  | expectedColon
  | expectedCommaOrBrace
  | expectedCommaOrBracket
  | trailingComma
  | trailingCharacters
  | invalidNumber
  | numberOutOfRange
  | invalidEscape
  /-- A high surrogate that no numeric escape follows. -/
  | unpairedEscape
  /-- A low surrogate without a high one, or a high one followed by no low one. -/
  | loneSurrogate
  | controlCharacter
  | tooDeep
  | endInValue
  | endInObject
  | endInList
  | endInString
  | wrongType (found : Shape) (expected : String)
  | duplicateField (name : String)
  /-- A naming convention in none of the forms it can have. -/
  | noConvention
  deriving DecidableEq, Repr

/-- The three sorts of problems. -/
inductive JsonError.Category where
  | syntactic
  | unfinished
  | data
  deriving DecidableEq, Repr

namespace JsonError

/-- Which sort of problem an error is. -/
def category : JsonError → Category
  | endInValue | endInObject | endInList | endInString => .unfinished
  | wrongType _ _ | duplicateField _ | noConvention => .data
  | _ => .syntactic

/-- The error in words. -/
def message : JsonError → String
  | expectedValue => "expected value"
  | expectedIdent => "expected ident"
  | keyNotString => "key must be a string"
  | expectedColon => "expected `:`"
  | expectedCommaOrBrace => "expected `,` or `\x7d`"
  | expectedCommaOrBracket => "expected `,` or `]`"
  | trailingComma => "trailing comma"
  | trailingCharacters => "trailing characters"
  | invalidNumber => "invalid number"
  | numberOutOfRange => "number out of range"
  | invalidEscape => "invalid escape"
  | unpairedEscape => "unexpected end of hex escape"
  | loneSurrogate => "lone leading surrogate in hex escape"
  | controlCharacter => "control character (\\u0000-\\u001F) found while parsing a string"
  | tooDeep => "recursion limit exceeded"
  | endInValue => "EOF while parsing a value"
  | endInObject => "EOF while parsing an object"
  | endInList => "EOF while parsing a list"
  | endInString => "EOF while parsing a string"
  | wrongType found expected => "invalid type: " ++ found.text ++ ", expected " ++ expected
  | duplicateField name => "duplicate field `" ++ name ++ "`"
  | noConvention => "data did not match any variant of untagged enum RawNamingConvention"

end JsonError

end QueryModule.Json
