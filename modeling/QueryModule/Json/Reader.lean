import QueryModule.Json.Scalar

/-!
# Reading JSON texts

Values are read in three ways: as a tree, as a value of one wanted form, and only to find their end.
Lists and objects are read item by item, so that whoever reads the items decides what becomes of them.
Trees nest at most so deep; a value whose end alone is wanted may nest as deep as its text is long.
-/

namespace QueryModule.Json

/-- A JSON value. The entries of an object are in the order of the text, repeated keys included. -/
inductive Value where
  | null
  | boolean (value : Bool)
  | number (value : Number)
  | string (text : String)
  | list (items : List Value)
  | object (entries : List (String × Value))
  deriving Repr, BEq, Inhabited

/-- The form of a value. -/
def Value.shape : Value → Shape
  | .null => .null
  | .boolean b => .boolean b
  | .number (.integer n) => .integer n
  | .number (.float x) => .float x
  | .string text => .string text
  | .list _ => .sequence
  | .object _ => .map

/-- How many lists and objects may be around a value, itself included. -/
def maxNesting : Nat := 127

namespace Reader

/-- The next character, which stays where it is. -/
def peek : Reader (Option Char) := fun text => .ok (text.head?, text)

/-- Takes the next character. -/
def advance : Reader Unit := fun text => .ok ((), text.tail)

/-- Is there another item in a list? White space and the comma in front of the item are taken, the
closing bracket is not. -/
def hasItem (first : Bool) : Reader Bool := do
  skipSpace
  match ← peek with
  | none => fail .endInList
  | some c =>
    if c = ']' then return false
    else if first then return true
    else if c = ',' then
      advance
      skipSpace
      match ← peek with
      | none => fail .endInValue
      | some d => if d = ']' then fail .trailingComma else return true
    else fail .expectedCommaOrBracket

/-- Takes the closing bracket of a list. -/
def closeList : Reader Unit := do
  skipSpace
  match ← peek with
  | none => fail .endInList
  | some c =>
    if c = ']' then advance
    else if c = ',' then
      advance
      skipSpace
      if (← peek) = some ']' then fail .trailingComma else fail .trailingCharacters
    else fail .trailingCharacters

/-- The key of the next entry of an object, if there is one. The closing brace is not taken. -/
def nextKey (first : Bool) : Reader (Option String) := do
  skipSpace
  match ← peek with
  | none => fail .endInObject
  | some c =>
    if c = '\x7d' then return none
    else
      if !first then
        if c = ',' then
          advance
          skipSpace
        else fail .expectedCommaOrBrace
      match ← peek with
      | none => fail .endInValue
      | some d =>
        if d = '"' then
          advance
          return some (← stringBody)
        else if d = '\x7d' then fail .trailingComma
        else fail .keyNotString

/-- Takes the colon behind a key. -/
def colon : Reader Unit := do
  skipSpace
  match ← peek with
  | none => fail .endInObject
  | some c => if c = ':' then advance else fail .expectedColon

/-- Takes the closing brace of an object. -/
def closeObject : Reader Unit := do
  skipSpace
  match ← peek with
  | none => fail .endInObject
  | some c =>
    if c = '\x7d' then advance
    else if c = ',' then fail .trailingComma
    else fail .trailingCharacters

/-- Folds `step` over what is left of a text until it gives no further state. A step that takes no
character is the last one. -/
def iterate (step : σ → Reader (Option σ)) (state : σ) (text : List Char) :
    Except JsonError (σ × List Char) :=
  match step state text with
  | .error e => .error e
  | .ok (none, rest) => .ok (state, rest)
  | .ok (some next, rest) =>
    if rest.length < text.length then iterate step next rest else .ok (next, rest)
termination_by text.length

/-- The items of a list behind its opening bracket, in reverse order. -/
def items (item : Reader α) : Reader (List α) := do
  let read ← iterate (fun read => do
    if ← hasItem read.isEmpty then return some ((← item) :: read) else return none) []
  closeList
  return read.reverse

/-- The entries of an object behind its opening brace. -/
def entries (item : Reader α) : Reader (List (String × α)) := do
  let read ← iterate (fun read => do
    match ← nextKey read.isEmpty with
    | some key =>
      colon
      return some ((key, ← item) :: read)
    | none => return none) []
  closeObject
  return read.reverse

/-- A number whose first character is next. -/
def number : Reader Number := do
  if (← peek) = some '-' then
    advance
    numberFrom true
  else numberFrom false

/-- A value without parts whose first character is `c`; `none` if a list or an object is next. -/
def scalar? (c : Char) : Reader (Option Value) := do
  if c = 'n' then
    advance
    word ['u', 'l', 'l']
    return some .null
  else if c = 't' then
    advance
    word ['r', 'u', 'e']
    return some (.boolean true)
  else if c = 'f' then
    advance
    word ['a', 'l', 's', 'e']
    return some (.boolean false)
  else if c = '-' || c.isDigit then return some (.number (← number))
  else if c = '"' then
    advance
    return some (.string (← stringBody))
  else if c = '[' || c = '\x7b' then return none
  else fail .expectedValue

/-- A value as a tree, where `nested` reads the parts of lists and objects unless they are too deep. -/
def treeOver (nested : Option (Reader Value)) : Reader Value := do
  skipSpace
  match ← peek with
  | none => fail .endInValue
  | some c =>
    match ← scalar? c, nested with
    | some value, _ => return value
    | none, none => fail .tooDeep
    | none, some nested =>
      advance
      if c = '[' then return .list (← items nested) else return .object (← entries nested)

/-- A value as a tree with at most so many levels of lists and objects. -/
def tree : Nat → Reader Value
  | 0 => treeOver none
  | levels + 1 => treeOver (some (tree levels))

/-- The form of the value that is next. Of lists and objects only the bracket is looked at. -/
def shape : Reader Shape := do
  match ← peek with
  | none => fail .expectedValue
  | some c =>
    match ← scalar? c with
    | some value => return value.shape
    | none => return if c = '[' then .sequence else .map

/-- Fails because the value that is next has another form than expected. -/
def wrongType (expected : String) : Reader α := do
  let found ← shape
  fail (.wrongType found expected)

/-- A string. -/
def string : Reader String := do
  skipSpace
  match ← peek with
  | none => fail .endInValue
  | some c =>
    if c = '"' then
      advance
      stringBody
    else wrongType "a string"

/-- A truth value. -/
def boolean : Reader Bool := do
  skipSpace
  match ← peek with
  | none => fail .endInValue
  | some c =>
    if c = 't' then
      advance
      word ['r', 'u', 'e']
      return true
    else if c = 'f' then
      advance
      word ['a', 'l', 's', 'e']
      return false
    else wrongType "a boolean"

/-- A value or `null`. -/
def optional (item : Reader α) : Reader (Option α) := do
  skipSpace
  if (← peek) = some 'n' then
    advance
    word ['u', 'l', 'l']
    return none
  else return some (← item)

/-- Is there another item in a list that nobody asks for? The closing bracket is taken. -/
def skipToItem (first : Bool) : Reader Bool := do
  skipSpace
  match ← peek with
  | none => fail .endInList
  | some c =>
    if c = ']' then
      advance
      return false
    else if first then return true
    else if c = ',' then
      advance
      return true
    else fail .expectedCommaOrBracket

/-- Is there another entry in an object that nobody asks for? Its key and the colon are taken, and so
is the closing brace. -/
def skipToEntry (first : Bool) : Reader Bool := do
  skipSpace
  match ← peek with
  | none => fail .endInObject
  | some c =>
    if c = '\x7d' then
      advance
      return false
    else
      if !first then
        if c = ',' then
          advance
          skipSpace
        else fail .expectedCommaOrBrace
      match ← peek with
      | none => fail .endInObject
      | some d =>
        if d = '"' then
          advance
          skipString
          colon
          return true
        else fail .keyNotString

/-- A value without parts that nobody asks for, with first character `c`; says whether a list or an
object is next instead. -/
def skipScalar (c : Char) : Reader Bool := do
  if c = '-' || c.isDigit then
    if c = '-' then advance
    fun text => (skipNumberFrom text).map (false, ·)
  else if c = '"' then
    advance
    skipString
    return false
  else return (← scalar? c).isNone

/-- The end of a value that nobody asks for, where `nested` looks for the ends of the parts of lists
and objects unless they are too deep. -/
def skipOver (nested : Option (Reader Unit)) : Reader Unit := do
  skipSpace
  match ← peek with
  | none => fail .endInValue
  | some c =>
    if ← skipScalar c then
      match nested with
      | none => fail .tooDeep
      | some nested =>
        advance
        let more := if c = '[' then skipToItem else skipToEntry
        let _ ← iterate (fun first => do
          if ← more first then
            nested
            return some false
          else return none) true

/-- The end of a value that nobody asks for, with at most so many levels of lists and objects. -/
def skipLevels : Nat → Reader Unit
  | 0 => skipOver none
  | levels + 1 => skipOver (some (skipLevels levels))

/-- The end of a value that nobody asks for. Each level takes a character, so that the length of the
text bounds the levels. -/
def skipValue : Reader Unit := fun text => skipLevels text.length text

/-- The value that makes up a whole text. -/
def whole (item : Reader α) (text : List Char) : Except JsonError α := do
  let (value, rest) ← item text
  if (rest.dropWhile isSpace).isEmpty then return value else throw .trailingCharacters

end Reader

end QueryModule.Json
