import QueryModule.Graphql.Document
import QueryModule.Graphql.Parser

/-!
# The grammar of executable documents

One parser per construct. Selection sets, values and types nest; each level of nesting opens a
bracket, and the number of open brackets is limited, so the parsers recurse on the number of levels
that are left.
-/

namespace QueryModule.Graphql

open QueryModule.Graphql.Parser

/-- Fails where a bracket would have to open that nests too deep: the source counts as ended. -/
def tooDeep : Parser α := fun ts => .error ⟨ts.position, some .endOfInput⟩

/-- The fields of an object with one more; a field that is there already gets the new value. The
fields stay in increasing order of their names. -/
def insertField (name : String) (value : Value) : List (String × Value) → List (String × Value)
  | [] => [(name, value)]
  | (n, v) :: rest =>
    if name < n then (name, value) :: (n, v) :: rest
    else if name = n then (name, value) :: rest
    else (n, v) :: insertField name value rest

/-- The object that given fields make up, the last one of each name counting. -/
def objectOf (fields : List (String × Value)) : Value :=
  .object (fields.foldl (fun object (name, value) => insertField name value object) [])

/-- `name: item` -/
def labelled (item : Parser α) : Parser (String × α) := do
  let label ← name
  let _ ← punctuator ":"
  return (label, ← item)

/-- The value that a name denotes. -/
def Value.ofName (text : String) : Value :=
  if text = "true" then .boolean true
  else if text = "false" then .boolean false
  else if text = "null" then .null
  else .enumerator text

/-- A value. In a constant there are no variables. -/
def value (constant : Bool) : Nat → Parser Value
  | 0 => tooDeep
  | levels + 1 => required do
    if ← looking (·.startsWith "[") then
      return .list (← between "[" "]" (value constant levels))
    else if ← looking (·.startsWith "\x7b") then
      return objectOf (← between "\x7b" "\x7d" (labelled (value constant levels)))
    else if ← looking (fun ts => !constant && ts.startsWith "$") then
      let _ ← punctuator "$"
      return .variableRef (← name)
    else
      let t ← tokenThat (·.kind != .punctuator)
      match t.kind with
      | .name => return .ofName t.text
      | .intValue => return .int (← intValue t)
      | .floatValue => return .float (← floatValue t)
      | _ => return .string (← stringValue t)

/-- A type: a name or a list in brackets, either of them with an optional exclamation mark. -/
def typeExpr : Nat → Parser TypeExpr
  | 0 => tooDeep
  | levels + 1 => required do
    let base ← do
      if ← optionalPunctuator "[" then
        let item ← typeExpr levels
        let _ ← punctuator "]"
        pure (TypeExpr.list item)
      else
        pure (TypeExpr.named (← name))
    if ← optionalPunctuator "!" then return .nonNull base else return base

/-- `(name: value …)`, or nothing. -/
def arguments : Parser Arguments :=
  optionalBetween "(" ")" (labelled (value false maxNesting))

/-- `@name(…)` -/
def directive : Parser Directive := do
  let _ ← punctuator "@"
  return ⟨← name, ← arguments⟩

/-- Any number of directives. -/
def directives : Parser (List Directive) := repeatUntil (!·.startsWith "@") directive

/-- What follows the three dots: the word `on` with a type, directives or a selection set make an
inline fragment, every other name is spread. -/
def afterDots (selectionSet : Parser (List Selection)) : Parser Selection := required do
  if ← looking (fun ts => ts.startsWithName "on" || ts.startsWith "@" || ts.startsWith "\x7b") then
    let onType ← do
      if ← looking (·.startsWithName "on") then
        let _ ← keyword "on"
        pure (some (← name))
      else
        pure none
    return .inline onType (← directives) (← selectionSet)
  else
    let t ← nameToken
    return .spread t.position t.text (← directives)

/-- A field: `key: name(…) @directive { … }`. -/
def field (selectionSet : Parser (List Selection)) : Parser Selection := do
  let first ← name
  let (key, fieldName) ← do
    if ← optionalPunctuator ":" then pure (some first, ← name) else pure (none, first)
  let args ← arguments
  let dirs ← directives
  let nested ← do
    if ← looking (·.startsWith "\x7b") then selectionSet else pure []
  return .field key fieldName args dirs nested

/-- One selection, in which `selectionSet` reads the nested ones. -/
def selection (selectionSet : Parser (List Selection)) : Parser Selection := do
  if ← optionalPunctuator "..." then afterDots selectionSet else field selectionSet

/-- A selection set: one or more selections in braces. -/
def selectionSet : Nat → Parser (List Selection)
  | 0 => tooDeep
  | levels + 1 => required do
    let _ ← punctuator "\x7b"
    let first ← required (selection (selectionSet levels))
    let others ← repeatUntil (·.startsWith "\x7d") (selection (selectionSet levels))
    let _ ← punctuator "\x7d"
    return first :: others

/-- `$name: Type = value` -/
def variableDefinition : Parser VariableDefinition := do
  let _ ← punctuator "$"
  let variableName ← name
  let _ ← punctuator ":"
  let type ← typeExpr maxNesting
  let defaultValue ← do
    if ← optionalPunctuator "=" then pure (some (← value true maxNesting)) else pure none
  return ⟨variableName, type, defaultValue⟩

/-- The part of an operation behind its keyword. -/
def explicitOperation (kind : OperationKind) (position : Position) : Parser Operation := do
  let operationName ← do
    if ← looking (fun
      | .next t _ => t.kind = .name
      | _ => false)
    then pure (some (← name)) else pure none
  let parameters ← optionalBetween "(" ")" variableDefinition
  let dirs ← directives
  return .explicit kind position operationName parameters dirs (← selectionSet maxNesting)

/-- The part of a fragment behind its keyword. -/
def fragmentDefinition (position : Position) : Parser FragmentDefinition := do
  let fragmentName ← name
  let _ ← keyword "on"
  let onType ← name
  let dirs ← directives
  return ⟨fragmentName, onType, position, dirs, ← selectionSet maxNesting⟩

/-- A definition of an executable document. -/
def definition : Parser Definition := do
  let position := (← get).position
  if ← looking (·.startsWith "\x7b") then
    return .operation (.shorthand position (← selectionSet maxNesting))
  else
    let t ← tokenThat fun t =>
      t.kind = .name && ["query", "mutation", "subscription", "fragment"].contains t.text
    if t.text = "fragment" then return .fragment (← fragmentDefinition position)
    else
      let kind : OperationKind :=
        if t.text = "mutation" then .mutation
        else if t.text = "subscription" then .subscription
        else .query
      return .operation (← explicitOperation kind position)

/-- Reads an executable document. -/
def parseDocument (source : String) : Except SyntaxError (List Definition) :=
  definitions definition (tokens source)

end QueryModule.Graphql
