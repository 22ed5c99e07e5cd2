import QueryModule.Graphql.Grammar

/-!
# Schemas

The grammar of the schema definition language. Generation never looks into a schema, so only what is
declared is kept: the kind of each declaration and its name. The rest of a declaration is read to the
end, for its syntax, and then dropped.
-/

namespace QueryModule.Schema

open QueryModule.Graphql
open QueryModule.Graphql.Parser

/-- The kinds of types. -/
inductive TypeKind where
  | scalar
  | object
  | interface
  | union
  | enumeration
  | input
  deriving DecidableEq, Repr

/-- What a schema can declare. -/
inductive Declaration where
  | schema
  | type (kind : TypeKind) (name : String)
  | extension (kind : TypeKind) (name : String)
  | directive (name : String)
  deriving DecidableEq, Repr

/-- The words that introduce types. -/
def typeKeywords : List (String × TypeKind) :=
  [("scalar", .scalar), ("type", .object), ("interface", .interface), ("union", .union),
    ("enum", .enumeration), ("input", .input)]

/-- A text in front of a declaration, if there is one. -/
def description : Parser (Option String) := do
  if ← looking looksAtString then return some (← string) else return none

/-- `name: Type = value @directive`, with a description. -/
def inputValue : Parser String := do
  let _ ← description
  let valueName ← name
  let _ ← punctuator ":"
  let _ ← typeExpr maxNesting
  if ← optionalPunctuator "=" then
    let _ ← value true maxNesting
  let _ ← directives
  return valueName

/-- The arguments of a field or of a directive: `(name: Type …)`, or nothing. -/
def argumentDefinitions : Parser (List String) := optionalBetween "(" ")" inputValue

/-- `name(…): Type @directive`, with a description. -/
def fieldDefinition : Parser String := do
  let _ ← description
  let fieldName ← name
  let _ ← argumentDefinitions
  let _ ← punctuator ":"
  let _ ← typeExpr maxNesting
  let _ ← directives
  return fieldName

/-- `NAME @directive`, with a description. -/
def enumValue : Parser String := do
  let _ ← description
  let valueName ← name
  let _ ← directives
  return valueName

/-- `implements A & B`, or nothing. An ampersand may come first. -/
def interfaces : Parser (List String) := do
  if ← looking (·.startsWithName "implements") then
    let _ ← keyword "implements"
    let _ ← optionalPunctuator "&"
    separated "&" name
  else
    return []

/-- `= A | B`, or nothing. A vertical bar may come first. -/
def unionMembers : Parser (List String) := do
  if ← optionalPunctuator "=" then
    let _ ← optionalPunctuator "|"
    separated "|" name
  else
    return []

/-- The name of a type, and whether anything is said of it that an extension may add. The interfaces
of an interface do not count. -/
def typeBody (kind : TypeKind) : Parser (String × Bool) := do
  let typeName ← name
  let implemented ← do
    if kind = .object || kind = .interface then interfaces else pure []
  let dirs ← directives
  let members ←
    match kind with
    | .scalar => pure []
    | .object => optionalBetween "\x7b" "\x7d" fieldDefinition
    | .interface => optionalBetween "\x7b" "\x7d" fieldDefinition
    | .union => unionMembers
    | .enumeration => optionalBetween "\x7b" "\x7d" enumValue
    | .input => optionalBetween "\x7b" "\x7d" inputValue
  let adds := !dirs.isEmpty || !members.isEmpty || (kind = .object && !implemented.isEmpty)
  return (typeName, adds)

/-- The words that name a place where a directive may stand. -/
def directiveLocations : List String :=
  ["QUERY", "MUTATION", "SUBSCRIPTION", "FIELD", "FRAGMENT_DEFINITION", "FRAGMENT_SPREAD",
    "INLINE_FRAGMENT", "VARIABLE_DEFINITION", "SCHEMA", "SCALAR", "OBJECT", "FIELD_DEFINITION",
    "ARGUMENT_DEFINITION", "INTERFACE", "UNION", "ENUM", "ENUM_VALUE", "INPUT_OBJECT",
    "INPUT_FIELD_DEFINITION"]

/-- One of the words that name a place where a directive may stand. -/
def directiveLocation : Parser String := do
  let t ← nameToken
  if directiveLocations.contains t.text then return t.text
  else failAt t.position (some .badDirectiveLocation)

/-- The part of a directive definition behind its keyword. The list of locations may be missing. -/
def directiveDefinition : Parser Declaration := do
  let _ ← punctuator "@"
  let directiveName ← name
  let _ ← argumentDefinitions
  if ← looking (·.startsWithName "repeatable") then
    let _ ← keyword "repeatable"
  let _ ← keyword "on"
  let listed ← looking fun
    | .next t _ => t.kind = .name || t.text = "|"
    | _ => false
  if listed then
    let _ ← optionalPunctuator "|"
    let _ ← separated "|" directiveLocation
  return .directive directiveName

/-- The first thing wrong with the operations that a schema definition lists: a kind that is listed
twice, or a name that is no kind of operation. -/
def rootProblem? : List String → List String → Option SyntaxCause
  | _, [] => none
  | seen, operation :: rest =>
    if !(["query", "mutation", "subscription"].contains operation) then
      some (.token .name operation)
    else if seen.contains operation then some (.duplicateRoot operation)
    else rootProblem? (operation :: seen) rest

/-- The part of a schema definition behind its keyword. -/
def schemaDefinition (position : Position) : Parser Declaration := do
  let _ ← directives
  let roots ← between "\x7b" "\x7d" (labelled name)
  match rootProblem? [] (roots.map (·.1)) with
  | some cause => failAt position (some cause)
  | none => return .schema

/-- The part of an extension behind the word `extend`; it has to add something. -/
def extension : Parser Declaration := do
  let t ← tokenThat fun t => t.kind = .name && (typeKeywords.lookup t.text).isSome
  let kind := (typeKeywords.lookup t.text).getD .scalar
  let (typeName, adds) ← typeBody kind
  if adds then return .extension kind typeName else failAt t.position none

/-- A declaration that may have a description in front of it. -/
def describable : Parser Declaration := do
  let t ← tokenThat fun t =>
    t.kind = .name && (t.text = "directive" || (typeKeywords.lookup t.text).isSome)
  match typeKeywords.lookup t.text with
  | some kind => return .type kind (← typeBody kind).1
  | none => directiveDefinition

/-- A declaration of a schema. -/
def declaration : Parser Declaration := do
  let position := (← get).position
  if (← description).isSome then describable
  else if ← looking (·.startsWithName "schema") then
    let _ ← keyword "schema"
    schemaDefinition position
  else if ← looking (·.startsWithName "extend") then
    let _ ← keyword "extend"
    extension
  else describable

/-- Reads a schema. -/
def parse (source : String) : Except SyntaxError (List Declaration) :=
  definitions declaration (tokens source)

end QueryModule.Schema
