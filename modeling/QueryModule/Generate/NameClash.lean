import QueryModule.Generate.Constant

/-!
# Clashes of generated names

No two constants may have the same name. The sources of names are looked through in order, the local
fragments before the named operations; the first one whose name an earlier one has generated is
reported together with that earlier one.
-/

namespace QueryModule.Generate

open QueryModule.Config (Settings)
open QueryModule.Fragment (Registry)
open QueryModule.Graphql

/-- A definition that a name is generated of. -/
structure NameSource where
  definitionName : String
  generatedName : String
  location : Location
  deriving DecidableEq, Repr

/-- The source in words. -/
def NameSource.text (s : NameSource) : String :=
  s!"{s.definitionName} (at {s.location.text})"

/-- Two sources of the same name. -/
structure NameClash where
  first : NameSource
  second : NameSource
  deriving DecidableEq, Repr

/-- The name that both sources generate. -/
def NameClash.generatedName (c : NameClash) : String := c.second.generatedName

/-- The clash in words. -/
def NameClash.message (c : NameClash) : String :=
  s!"Generated name `{c.generatedName}` is used by both {c.first.text} and {c.second.text}"

/-- The sources of constants: the local fragments, then the named operations. -/
def nameSources (r : Registry) (s : Settings) (definitions : List SourcedDefinition) :
    List NameSource :=
  let ofFragments := r.locals.map fun f =>
    ⟨"fragment " ++ f.name, s.fragmentConstantName f.name, f.location⟩
  let ofOperations := definitions.filterMap fun d =>
    d.definition.operation?.bind fun o => o.name?.map fun name =>
      ⟨"operation " ++ name, s.operationConstantName name, ⟨d.file, o.position⟩⟩
  ofFragments ++ ofOperations

/-- The first source whose name one of the sources before it has; `seen` are sources before all of
them. -/
def firstClash (seen : List NameSource) : List NameSource → Option NameClash
  | [] => none
  | source :: rest =>
    match seen.find? (·.generatedName = source.generatedName) with
    | some first => some ⟨first, source⟩
    | none => firstClash (seen ++ [source]) rest

/-- Checks that no two constants have the same name. -/
def checkNames (r : Registry) (s : Settings) (definitions : List SourcedDefinition) :
    Except NameClash Unit :=
  match firstClash [] (nameSources r s definitions) with
  | some clash => .error clash
  | none => .ok ()

end QueryModule.Generate
