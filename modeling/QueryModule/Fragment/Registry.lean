import QueryModule.Fragment.Sourced
import QueryModule.Fragment.Search

/-!
# The registry of fragments

All fragments that a generation run can spread: the local ones in source order, then the external
ones. A registry answers which fragments a selection set needs, and in which order fragments can be
listed so that each one comes behind those it spreads; and it knows what is wrong with the fragments
as a whole.
-/

namespace QueryModule.Fragment

open QueryModule.Graphql

/-- What can be wrong with a set of fragments. -/
inductive FragmentError where
  /-- Two fragments of the same origin have the same name. -/
  | duplicateDefinition (name : String) (first second : Location)
  /-- Fragments that spread each other in a circle; the path starts and ends with the same one. -/
  | cycle (path : List String)
  /-- A definition spreads a fragment that nobody knows. -/
  | undefinedReference (referencedBy undefinedName : String) (location : Location)
  deriving DecidableEq, Repr

/-- The error in words. -/
def FragmentError.message : FragmentError → String
  | .duplicateDefinition name first second =>
    s!"Fragment `{name}` is defined twice: at {first.text} and at {second.text}"
  | .cycle path => "Fragments spread each other in a loop: " ++ " -> ".intercalate path
  | .undefinedReference referencedBy undefinedName location =>
    s!"`{referencedBy}` spreads unknown fragment `{undefinedName}` at {location.text}"

/-- The fragments of a run, in the order of registration. -/
structure Registry where
  fragments : List SourcedFragment
  deriving Repr, BEq

namespace Registry

/-- The registry without fragments. -/
def empty : Registry := ⟨[]⟩

/-- The fragment with a name. -/
def get? (r : Registry) (name : String) : Option SourcedFragment :=
  r.fragments.find? (·.name = name)

/-- The local fragments in the order of registration. -/
def locals (r : Registry) : List SourcedFragment := r.fragments.filter (!·.external)

/-- Which fragment spreads which. -/
def graph (r : Registry) : SpreadGraph :=
  ⟨r.fragments.map fun f => (f.name, spreadNames f.definition.selections)⟩

/-- All fragments, each one behind those it spreads; ties keep the order of registration. -/
def spreadOrder (r : Registry) : List SourcedFragment :=
  (r.graph.finishOrder r.graph.names).filterMap r.get?

/-- The fragments that a selection set spreads, directly or through other fragments. Each one is listed
once, behind those it spreads itself. Names that are not registered are passed over. -/
def neededBy (r : Registry) (selections : List Selection) : List SourcedFragment :=
  (r.graph.finishOrder (spreadNames selections)).filterMap r.get?

/-- An error for every spread of a name that is not registered. -/
def undefinedReferences (r : Registry) (referencedBy : String) (file : Option String)
    (spreads : List Spread) : List FragmentError :=
  (spreads.filter fun s => (r.get? s.name).isNone).map fun s =>
    .undefinedReference referencedBy s.name ⟨file, s.position⟩

/-- An error for every spread in an operation that is not registered. -/
def undefinedInOperation (r : Registry) (name : String) (file : Option String)
    (selections : List Selection) : List FragmentError :=
  r.undefinedReferences name file (spreadsOf selections)

/-- An error for every spread in a registered fragment that is not registered. -/
def undefinedInFragments (r : Registry) : List FragmentError :=
  r.fragments.flatMap fun f => r.undefinedReferences f.name f.file f.spreads

/-- What is wrong with the fragments as a whole: first the circles, then the unknown spreads. -/
def problems (r : Registry) : List FragmentError :=
  r.graph.loops.map .cycle ++ r.undefinedInFragments

end Registry

end QueryModule.Fragment
