import QueryModule.Json.Error
import QueryModule.Text.Characters
import QueryModule.Text.Utf8

/-!
# Strings and numbers in JSON texts

A `Reader` takes characters from the front of a text. Strings and numbers have two readers each: one
that yields the value, and one for values that nobody asks for, which only looks for the end. The
second is more lenient: it accepts lone surrogates and numbers of any size.

Numbers are read the way it is usual for speed: as many digits as fit in 64 bits make up a
significand, and the float is that significand times a power of ten, each rounded on its own.
-/

namespace QueryModule.Json

open QueryModule.Decimal (Binary64 Magnitude)
open QueryModule.Text (hexDigit? natOfDigits)
open QueryModule.Text.Utf8 (byteSize)

/-- Takes characters from the front of a text. -/
abbrev Reader (α : Type) := StateT (List Char) (Except JsonError) α

/-- Fails. -/
def Reader.fail (e : JsonError) : Reader α := fun _ => .error e

/-- The white space of JSON. -/
def isSpace (c : Char) : Bool := c == ' ' || c == '\n' || c == '\t' || c == '\r'

/-- Skips white space. -/
def skipSpace : Reader Unit := fun text => .ok ((), text.dropWhile isSpace)

/-- The number that the first four characters denote in hexadecimal. Whether the text ends too early
is decided by its bytes. -/
def hexFour (text : List Char) : Except JsonError Nat :=
  let four := text.take 4
  if byteSize four < 4 then .error .endInString
  else
    match four.mapM hexDigit? with
    | some [a, b, c, d] => .ok (((a * 16 + b) * 16 + c) * 16 + d)
    | _ => .error .invalidEscape

/-- Is `n` the first half of a surrogate pair? -/
def isHighSurrogate (n : Nat) : Bool := 0xD800 ≤ n && n ≤ 0xDBFF

/-- Is `n` the second half of a surrogate pair? -/
def isLowSurrogate (n : Nat) : Bool := 0xDC00 ≤ n && n ≤ 0xDFFF

/-- The second half of a surrogate pair, in a text that should start with its numeric escape. -/
def lowSurrogate (text : List Char) : Except JsonError Nat :=
  match text with
  | [] => .error .endInString
  | '\\' :: rest =>
    match rest with
    | [] => .error .endInString
    | 'u' :: rest => do
      let n ← hexFour rest
      if isLowSurrogate n then return n else throw .loneSurrogate
    | _ => .error .unpairedEscape
  | _ => .error .unpairedEscape

/-- The character that a numeric escape denotes, and how many characters behind the `u` it takes. -/
def numberedEscape (text : List Char) : Except JsonError (Char × Nat) := do
  let n ← hexFour text
  if isLowSurrogate n then throw .loneSurrogate
  if isHighSurrogate n then
    let low ← lowSurrogate (text.drop 4)
    return (Char.ofNat (0x10000 + (n - 0xD800) * 0x400 + (low - 0xDC00)), 10)
  return (Char.ofNat n, 4)

/-- The character that a backslash in front of `c` denotes, unless the escape is numeric. -/
def simpleEscape? (c : Char) : Option Char :=
  if c = '"' || c = '\\' || c = '/' then some c
  else if c = 'b' then some (Char.ofNat 0x08)
  else if c = 'f' then some (Char.ofNat 0x0C)
  else if c = 'n' then some '\n'
  else if c = 'r' then some '\r'
  else if c = 't' then some '\t'
  else none

/-- The character that an escape denotes, and how many characters behind the backslash it takes. -/
def escape (text : List Char) : Except JsonError (Char × Nat) :=
  match text with
  | [] => .error .endInString
  | c :: rest =>
    if c = 'u' then (numberedEscape rest).map fun (x, n) => (x, n + 1)
    else
      match simpleEscape? c with
      | some x => .ok (x, 1)
      | none => .error .invalidEscape

/-- The end of an escape that nobody asks for: how many characters behind the backslash it takes. -/
def escapeLength (text : List Char) : Except JsonError Nat :=
  match text with
  | [] => .error .endInString
  | c :: rest =>
    if c = 'u' then (hexFour rest).map fun _ => 5
    else if (simpleEscape? c).isSome then .ok 1
    else .error .invalidEscape

/-- The text of a string behind its opening mark, and what follows the string. -/
def stringFrom : List Char → Except JsonError (List Char × List Char)
  | [] => .error .endInString
  | c :: rest =>
    if c = '"' then .ok ([], rest)
    else if c = '\\' then
      match escape rest with
      | .error e => .error e
      | .ok (x, n) => (stringFrom (rest.drop n)).map fun (text, after) => (x :: text, after)
    else if c.toNat < 0x20 then .error .controlCharacter
    else (stringFrom rest).map fun (text, after) => (c :: text, after)
termination_by text => text.length
decreasing_by
  · simp only [List.length_drop, List.length_cons]; omega
  · simp

/-- What follows a string that nobody asks for, given the text behind its opening mark. -/
def skipStringFrom : List Char → Except JsonError (List Char)
  | [] => .error .endInString
  | c :: rest =>
    if c = '"' then .ok rest
    else if c = '\\' then
      match escapeLength rest with
      | .error e => .error e
      | .ok n => skipStringFrom (rest.drop n)
    else if c.toNat < 0x20 then .error .controlCharacter
    else skipStringFrom rest
termination_by text => text.length
decreasing_by
  · simp only [List.length_drop, List.length_cons]; omega
  · simp

/-- The text of a string behind its opening mark. -/
def stringBody : Reader String := fun text =>
  (stringFrom text).map fun (s, rest) => (String.ofList s, rest)

/-- The end of a string that nobody asks for. -/
def skipString : Reader Unit := fun text => (skipStringFrom text).map ((), ·)

/-- A number: an integer that fits in 64 bits, with or without sign, or a float. -/
inductive Number where
  | integer (value : Int)
  | float (value : Binary64)
  deriving DecidableEq, Repr

/-- The greatest significand. -/
def maxSignificand : Nat := Nat.pow 2 64 - 1

/-- Appends digits to a significand as long as it stays in its range; says how many it took. -/
def accumulate (significand : Nat) : List Char → Nat × Nat
  | [] => (significand, 0)
  | c :: rest =>
    let next := 10 * significand + (c.toNat - '0'.toNat)
    if next ≤ maxSignificand then
      let (total, taken) := accumulate next rest
      (total, taken + 1)
    else (significand, 0)

/-- The power of ten with an exponent of at most 308, rounded. -/
def powerOfTen (n : Nat) : Magnitude := .ofRatio (Nat.pow 10 n) 1

/-- A value divided by a power of ten, in steps of at most 308 places that each round. -/
def divideByPower (x : Magnitude) (n : Nat) : Magnitude :=
  if n ≤ 308 then x.div (powerOfTen n)
  else if x = .zero then x
  else divideByPower (x.div (powerOfTen 308)) (n - 308)
termination_by n

/-- The float `significand · 10 ^ exponent`; infinity is out of range. -/
def scale (significand : Nat) (exponent : Int) : Except JsonError Magnitude :=
  let x := Magnitude.ofRatio significand 1
  match exponent with
  | .ofNat e =>
    if significand = 0 then .ok x
    else if e > 308 then .error .numberOutOfRange
    else
      match x.mul (powerOfTen e) with
      | .infinite => .error .numberOutOfRange
      | y => .ok y
  | .negSucc e => .ok (divideByPower x (e + 1))

/-- Does the text start with a digit? -/
def startsWithDigit : List Char → Bool
  | c :: _ => c.isDigit
  | [] => false

/-- The digits at the front of a text, and what follows them. -/
def spanDigits (text : List Char) : List Char × List Char := text.span Char.isDigit

/-- Is it the mark in front of an exponent? -/
def isExponentMark (c : Char) : Bool := c == 'e' || c == 'E'

/-- The greatest exponent that is looked at; beyond it only the sign of the exponent counts. -/
def maxExponent : Nat := Nat.pow 2 31 - 1

/-- An optional sign: is it a minus, and what follows it? -/
def spanSign : List Char → Bool × List Char
  | '+' :: rest => (false, rest)
  | '-' :: rest => (true, rest)
  | text => (false, text)

/-- The float with a significand and an exponent that a number of places is added to or taken from. -/
def shift (significand : Nat) (exponent : Int) (down : Bool) (places : Nat) :
    Except JsonError Magnitude :=
  if places > maxExponent then
    if significand ≠ 0 && !down then .error .numberOutOfRange else .ok .zero
  else scale significand (if down then exponent - places else exponent + places)

/-- The float with a significand and an exponent, in a text behind the exponent mark. -/
def exponentFrom (significand : Nat) (exponent : Int) (text : List Char) :
    Except JsonError (Magnitude × List Char) :=
  let (down, text) := spanSign text
  if text.isEmpty then .error .endInValue
  else if !startsWithDigit text then .error .invalidNumber
  else
    let (digits, rest) := spanDigits text
    (shift significand exponent down (natOfDigits digits)).map (·, rest)

/-- The float with a significand and an exponent, in a text that may go on with an exponent. -/
def floatFrom (significand : Nat) (exponent : Int) (text : List Char) :
    Except JsonError (Magnitude × List Char) :=
  match text with
  | [] => (scale significand exponent).map (·, [])
  | c :: rest =>
    if isExponentMark c then exponentFrom significand exponent rest
    else (scale significand exponent).map (·, c :: rest)

/-- A number without fraction and exponent, of which so many digits have not been taken. -/
def plainNumber (negative : Bool) (significand : Nat) (dropped : Int) : Except JsonError Number :=
  if dropped ≠ 0 then (scale significand dropped).map fun x => .float ⟨negative, x⟩
  else if !negative then .ok (.integer significand)
  else if significand = 0 || significand > Nat.pow 2 63 then
    .ok (.float ⟨negative, .ofRatio significand 1⟩)
  else .ok (.integer (-(significand : Int)))

/-- The number whose whole part has been read, in a text that may go on with a fraction and an
exponent. -/
def numberBehind (negative : Bool) (significand : Nat) (dropped : Int) (text : List Char) :
    Except JsonError (Number × List Char) :=
  match text with
  | [] => (plainNumber negative significand dropped).map (·, [])
  | c :: rest =>
    if c = '.' then
      let (fraction, after) := spanDigits rest
      if fraction.isEmpty then .error (if after.isEmpty then .endInValue else .invalidNumber)
      else
        let (significand, taken) := accumulate significand fraction
        (floatFrom significand (dropped - taken) after).map fun (x, after) =>
          (.float ⟨negative, x⟩, after)
    else if isExponentMark c then
      (exponentFrom significand dropped rest).map fun (x, after) => (.float ⟨negative, x⟩, after)
    else (plainNumber negative significand dropped).map (·, c :: rest)

/-- The number in a text that starts behind an optional minus sign. -/
def numberFrom (negative : Bool) (text : List Char) : Except JsonError (Number × List Char) :=
  if text.isEmpty then .error .endInValue
  else if !startsWithDigit text then .error .invalidNumber
  else
    let (whole, rest) := spanDigits text
    if whole.head? = some '0' && whole.length > 1 then .error .invalidNumber
    else
      let (significand, taken) := accumulate 0 whole
      numberBehind negative significand (whole.length - taken) rest

/-- What follows a fraction that nobody asks for, if there is one. -/
def skipFraction : List Char → Except JsonError (List Char)
  | [] => .ok []
  | c :: rest =>
    if c = '.' then
      if startsWithDigit rest then .ok (spanDigits rest).2 else .error .invalidNumber
    else .ok (c :: rest)

/-- What follows an exponent that nobody asks for, if there is one. -/
def skipExponent : List Char → Except JsonError (List Char)
  | [] => .ok []
  | c :: rest =>
    if isExponentMark c then
      let (_, text) := spanSign rest
      if startsWithDigit text then .ok (spanDigits text).2 else .error .invalidNumber
    else .ok (c :: rest)

/-- What follows a number that nobody asks for, given the text behind an optional minus sign. -/
def skipNumberFrom (text : List Char) : Except JsonError (List Char) :=
  if !startsWithDigit text then .error .invalidNumber
  else
    let (whole, rest) := spanDigits text
    if whole.head? = some '0' && whole.length > 1 then .error .invalidNumber
    else (skipFraction rest).bind skipExponent

/-- The rest of a word whose first character has been taken. -/
def word : List Char → Reader Unit
  | [] => pure ()
  | c :: rest => fun text =>
    match text with
    | [] => .error .endInValue
    | d :: after => if d = c then word rest after else .error .expectedIdent

end QueryModule.Json
