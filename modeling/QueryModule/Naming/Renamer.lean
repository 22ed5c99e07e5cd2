import QueryModule.Naming.Convention

/-!
# Renaming

Unless underscores are to be restyled, too, a name is cut at its underscores, each piece gets the
casing on its own, and the pieces are joined with underscores again; so the underscores of the source
survive every casing.
-/

namespace QueryModule.Naming

/-- A convention and whether underscores are part of what is restyled. -/
structure Renamer where
  convention : NamingConvention
  transformUnderscore : Bool
  deriving DecidableEq, Repr

namespace Renamer

/-- A casing applied between the underscores of a text. -/
def betweenUnderscores (t : Casing) (text : List Char) : List Char :=
  ['_'].intercalate ((Text.splitAt '_' text).map t.restyleChars)

/-- A casing applied to a name, across its underscores or between them. -/
def recase (c : Renamer) (t : Casing) (name : String) : String :=
  if c.transformUnderscore then t.restyle name
  else String.ofList (betweenUnderscores t name.toList)

/-- The name that a name is restyled to. -/
def rename (c : Renamer) (name : String) (category : Category) : String :=
  match c.convention.treatment category with
  | .keep => name
  | .transform t => c.recase t name

/-- Are underscores to be restyled? The flag can be set for all names and in the map of
conventions; either suffices. -/
def underscoreFlag (convention : Option Config.Convention) (flag : Option Bool) : Bool :=
  let inner :=
    match convention with
    | some (.perCategory _ inner _) => inner.getD false
    | _ => false
  flag.getD false || inner

/-- The renamer that is configured. -/
def resolve (convention : Option Config.Convention) (flag : Option Bool) :
    Except SelectorError Renamer := do
  let resolved ←
    match convention with
    | some c => NamingConvention.resolve c
    | none => pure NamingConvention.default
  return ⟨resolved, underscoreFlag convention flag⟩

end Renamer

end QueryModule.Naming
