import QueryModule.Config.Settings
import QueryModule.Fragment.Registry
import QueryModule.Graphql.Printer
import QueryModule.Text.Characters

/-!
# Constants

What is generated of a definition: a name and a text. The text is a document of its own: the
definition, followed by every fragment that it needs. Local fragments and named operations become
constants; external fragments are only ever part of other texts, and operations without a name are
left out.
-/

namespace QueryModule.Generate

open QueryModule.Config (Settings)
open QueryModule.Fragment (SourcedFragment Registry)
open QueryModule.Graphql

/-- A name and the text it stands for. -/
structure Constant where
  name : String
  text : String
  deriving DecidableEq, Repr

/-- The definition itself, then the fragments that it needs, each one behind those it spreads. A
fragment is not repeated among the fragments it needs. -/
def standaloneDefinitions (r : Registry) (d : Definition) : List Definition :=
  let ownName := d.fragment?.map (·.name)
  let needed := (r.neededBy d.selections).filter fun f => some f.name ≠ ownName
  d :: needed.map fun f => .fragment f.definition

/-- The text of a definition and of all that it needs, without white space around it. -/
def standaloneText (r : Registry) (d : Definition) : String :=
  String.ofList (Text.trim (printDocument (standaloneDefinitions r d)).toList)

/-- The constant of a fragment. -/
def Constant.ofFragment (r : Registry) (s : Settings) (f : SourcedFragment) : Constant :=
  ⟨s.fragmentConstantName f.name, standaloneText r (.fragment f.definition)⟩

/-- The constant of an operation, if it has a name. -/
def Constant.ofOperation? (r : Registry) (s : Settings) (o : Operation) : Option Constant :=
  o.name?.map fun name => ⟨s.operationConstantName name, standaloneText r (.operation o)⟩

/-- The constant of a definition of the documents; fragments have theirs from the registry. -/
def Constant.ofDefinition? (r : Registry) (s : Settings) : Definition → Option Constant
  | .operation o => Constant.ofOperation? r s o
  | .fragment _ => none

/-- The constants of the local fragments, each one behind those it spreads. -/
def fragmentConstants (r : Registry) (s : Settings) : List Constant :=
  (r.spreadOrder.filter (!·.external)).map (Constant.ofFragment r s)

/-- The constants of the named operations in document order. -/
def operationConstants (r : Registry) (s : Settings) (definitions : List SourcedDefinition) :
    List Constant :=
  definitions.filterMap fun d => Constant.ofDefinition? r s d.definition

/-- How a constant is written. -/
abbrev ConstantWriter := Constant → String

/-- The constants of the local fragments in writing, with a line feed between each two. -/
def fragmentBlock (write : ConstantWriter) (r : Registry) (s : Settings) : String :=
  "\n".intercalate ((fragmentConstants r s).map write)

/-- The positions of the operations without a name. -/
def anonymousOperations (definitions : List SourcedDefinition) : List Position :=
  definitions.filterMap fun d =>
    match d.definition.operation? with
    | some o => if o.name?.isNone then some o.position else none
    | none => none

end QueryModule.Generate
