import QueryModule.Config.Options
import QueryModule.Naming.Casing
import QueryModule.Text.Characters

/-!
# Naming conventions

A convention says for each category of names whether they are kept or which casing they get. It is
written as a selector: `keep`, the name of a casing, or one behind the name of a module, as in
`change-case-all#pascalCase`.
-/

namespace QueryModule.Naming

/-- What a convention does to the names of one category. -/
inductive Treatment where
  | keep
  | transform (t : Casing)
  deriving DecidableEq, Repr

/-- The categories of names. Operations and fragments are named like types. -/
inductive Category where
  | enumValues
  | typeNames
  deriving DecidableEq, Repr

/-- A convention. -/
inductive NamingConvention where
  /-- All names stay as they are. -/
  | keep
  /-- All names get the same casing. -/
  | single (t : Casing)
  /-- Each category has its own treatment; where none is given the default applies. -/
  | perCategory (enumValues typeNames : Option Treatment)
  deriving DecidableEq, Repr

/-- Why a selector denotes no treatment. The selector is given without white space at its ends. -/
inductive SelectorError where
  | unknownFunction (function selector : String)
  | unknownModule (moduleName selector : String)
  deriving DecidableEq, Repr

/-- The error in words. -/
def SelectorError.message : SelectorError → String
  | .unknownFunction function selector =>
    s!"Unknown case function `{function}` in naming convention `{selector}`"
  | .unknownModule moduleName selector =>
    s!"Unsupported naming convention module `{moduleName}` in `{selector}` "
      ++ "(expected `change-case-all#<function>`)"

/-- The modules whose casings can be selected. -/
def selectorModules : List String := ["change-case-all", "change-case"]

/-- The selector that keeps names. -/
def keepWord : String := "keep"

/-- The casing that applies where none is selected. It yields names that start with a small letter,
as function names have to. -/
def defaultCasing : Casing := .snake

namespace Treatment

/-- The treatment by the casing that a name selects. -/
def ofFunction (function selector : String) : Except SelectorError Treatment :=
  match Casing.ofName? function with
  | some t => .ok (.transform t)
  | none => .error (.unknownFunction function selector)

/-- A text before and behind its first hash sign, if it has one. -/
def splitAtHash? (text : List Char) : Option (List Char × List Char) :=
  match text.dropWhile (· != '#') with
  | [] => none
  | _ :: rest => some (text.takeWhile (· != '#'), rest)

/-- The treatment that a selector denotes. -/
def ofSelector (text : String) : Except SelectorError Treatment :=
  let trimmed := Text.trim text.toList
  let selector := String.ofList trimmed
  if selector = keepWord then .ok .keep
  else
    match splitAtHash? trimmed with
    | some (moduleName, function) =>
      if selectorModules.contains (String.ofList moduleName) then
        ofFunction (String.ofList function) selector
      else .error (.unknownModule (String.ofList moduleName) selector)
    | none => ofFunction selector selector

/-- The treatment that a selector denotes, if there is one. -/
def ofSelector? : Option String → Except SelectorError (Option Treatment)
  | none => .ok none
  | some selector => (ofSelector selector).map some

end Treatment

namespace NamingConvention

/-- The convention that applies when none is configured. -/
def default : NamingConvention := .single defaultCasing

/-- What the convention does to the names of a category. -/
def treatment (c : NamingConvention) (category : Category) : Treatment :=
  match c with
  | keep => .keep
  | single t => .transform t
  | perCategory enumValues typeNames =>
    let given :=
      match category with
      | .enumValues => enumValues
      | .typeNames => typeNames
    given.getD (.transform defaultCasing)

/-- The convention for all names that a treatment makes up. -/
def ofTreatment : Treatment → NamingConvention
  | .keep => .keep
  | .transform t => .single t

/-- The convention that is configured. -/
def resolve : Config.Convention → Except SelectorError NamingConvention
  | .selector text => (Treatment.ofSelector text).map ofTreatment
  | .perCategory enumValues _ typeNames => do
    let enumValues ← Treatment.ofSelector? enumValues
    let typeNames ← Treatment.ofSelector? typeNames
    return .perCategory enumValues typeNames

end NamingConvention

end QueryModule.Naming
