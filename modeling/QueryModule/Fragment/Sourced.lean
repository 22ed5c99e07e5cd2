import QueryModule.Source.Document

/-!
# Fragments and where they come from

A fragment that a generation run knows is either a local one, found in the documents, or an external
one, which may be spread but does not become a constant of its own.
-/

namespace QueryModule.Fragment

open QueryModule.Graphql

/-- A fragment definition with the file it comes from. -/
structure SourcedFragment where
  definition : FragmentDefinition
  file : Option String
  external : Bool
  deriving Repr, BEq

namespace SourcedFragment

/-- The name of the fragment. -/
def name (f : SourcedFragment) : String := f.definition.name

/-- The type that the fragment is on. -/
def onType (f : SourcedFragment) : String := f.definition.onType

/-- Where the fragment is defined. -/
def location (f : SourcedFragment) : Location := ⟨f.file, f.definition.position⟩

/-- The spreads in the fragment, in source order. -/
def spreads (f : SourcedFragment) : List Spread := spreadsOf f.definition.selections

end SourcedFragment

/-- The fragments among some definitions, as local or as external ones. -/
def fragmentsOf (external : Bool) (definitions : List SourcedDefinition) : List SourcedFragment :=
  definitions.filterMap fun d => d.definition.fragment?.map (⟨·, d.file, external⟩)

/-- The external fragments that a document supplies. -/
def externalsOf (document : SourceDocument) : List SourcedFragment :=
  fragmentsOf true document.sourced

end QueryModule.Fragment
