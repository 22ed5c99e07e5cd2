import QueryModule.Decimal.Binary64
import QueryModule.Source.Location

/-!
# Executable documents

What a GraphQL client sends: operations and the fragments that they spread. Positions are kept where
later messages need them, for definitions and for spreads. The fields of an object value are in
increasing order of their names, and each name occurs once.
-/

namespace QueryModule.Graphql

open QueryModule.Decimal (Binary64)

/-- The values of arguments and defaults. -/
inductive Value where
  | variableRef (name : String)
  | int (value : Int)
  | float (value : Binary64)
  | string (text : String)
  | boolean (value : Bool)
  | null
  | enumerator (name : String)
  | list (items : List Value)
  | object (fields : List (String × Value))
  deriving Repr, BEq, Inhabited

/-- The type of a variable or of a schema field. -/
inductive TypeExpr where
  | named (name : String)
  | list (item : TypeExpr)
  | nonNull (type : TypeExpr)
  deriving Repr, DecidableEq, Inhabited

/-- Named values in source order. -/
abbrev Arguments := List (String × Value)

/-- A directive such as `@include(if: $flag)`. -/
structure Directive where
  name : String
  arguments : Arguments
  deriving Repr, BEq

/-- What a selection set selects. -/
inductive Selection where
  | field (responseKey : Option String) (name : String) (arguments : Arguments)
      (directives : List Directive) (selections : List Selection)
  | spread (position : Position) (name : String) (directives : List Directive)
  | inline (onType : Option String) (directives : List Directive) (selections : List Selection)
  deriving Repr, BEq, Inhabited

/-- A variable of an operation. -/
structure VariableDefinition where
  name : String
  type : TypeExpr
  defaultValue : Option Value
  deriving Repr, BEq

/-- The three kinds of operations. -/
inductive OperationKind where
  | query
  | mutation
  | subscription
  deriving DecidableEq, Repr

/-- The word that introduces an operation of this kind. -/
def OperationKind.keyword : OperationKind → String
  | .query => "query"
  | .mutation => "mutation"
  | .subscription => "subscription"

/-- An operation: a bare selection set, which is a query without a name, or a written-out one. -/
inductive Operation where
  | shorthand (position : Position) (selections : List Selection)
  | explicit (kind : OperationKind) (position : Position) (name : Option String)
      (parameters : List VariableDefinition) (directives : List Directive)
      (selections : List Selection)
  deriving Repr, BEq

/-- A named selection on a type. -/
structure FragmentDefinition where
  name : String
  onType : String
  position : Position
  directives : List Directive
  selections : List Selection
  deriving Repr, BEq

/-- A definition of a document. -/
inductive Definition where
  | operation (operation : Operation)
  | fragment (fragment : FragmentDefinition)
  deriving Repr, BEq

namespace Operation

/-- The name of an operation that has one. -/
def name? : Operation → Option String
  | shorthand _ _ => none
  | explicit _ _ name _ _ _ => name

/-- Where the operation starts. -/
def position : Operation → Position
  | shorthand p _ => p
  | explicit _ p _ _ _ _ => p

/-- What the operation selects. -/
def selections : Operation → List Selection
  | shorthand _ s => s
  | explicit _ _ _ _ _ s => s

end Operation

namespace Definition

/-- The name of a fragment or of a named operation. -/
def name? : Definition → Option String
  | operation o => o.name?
  | fragment f => some f.name

/-- Where the definition starts. -/
def position : Definition → Position
  | operation o => o.position
  | fragment f => f.position

/-- What the definition selects. -/
def selections : Definition → List Selection
  | operation o => o.selections
  | fragment f => f.selections

/-- The definition as a fragment, if it is one. -/
def fragment? : Definition → Option FragmentDefinition
  | operation _ => none
  | fragment f => some f

/-- The definition as an operation, if it is one. -/
def operation? : Definition → Option Operation
  | operation o => some o
  | fragment _ => none

end Definition

/-- An occurrence of `...Name` in a selection set. -/
structure Spread where
  name : String
  position : Position
  deriving DecidableEq, Repr

mutual

/-- The spreads of a selection, those of nested selections included. -/
def Selection.spreads : Selection → List Spread
  | .field _ _ _ _ selections => spreadsOf selections
  | .spread position name _ => [⟨name, position⟩]
  | .inline _ _ selections => spreadsOf selections

/-- Every spread in a selection set at any depth, in source order. A fragment that is spread several
times is listed each time. -/
def spreadsOf : List Selection → List Spread
  | [] => []
  | s :: rest => s.spreads ++ spreadsOf rest

end

/-- The names that a selection set spreads, in source order. -/
def spreadNames (selections : List Selection) : List String := (spreadsOf selections).map (·.name)

end QueryModule.Graphql
