import QueryModule.Naming.Renamer

/-!
# Settings

The options with their defaults applied and the naming convention resolved.
-/

namespace QueryModule.Config

open QueryModule.Naming (Renamer SelectorError)

/-- The module name that applies when none is configured. -/
def defaultModuleName : String := "Generated.GraphQL"

/-- What is put around restyled names, for operations and for fragments. -/
structure Affixes where
  documentPrefix : String
  documentSuffix : String
  fragmentPrefix : String
  fragmentSuffix : String
  deriving DecidableEq, Repr

/-- The affixes that are configured; an absent one is empty. -/
def Affixes.ofOptions (o : Options) : Affixes where
  documentPrefix := o.namePrefix.getD ""
  documentSuffix := o.nameSuffix.getD ""
  fragmentPrefix := o.fragmentPrefix.getD ""
  fragmentSuffix := o.fragmentSuffix.getD ""

/-- What generation is configured by. -/
structure Settings where
  moduleName : String
  renamer : Renamer
  affixes : Affixes
  deriving DecidableEq, Repr

/-- The settings that options amount to. -/
def Settings.resolve (o : Options) : Except SelectorError Settings := do
  let renamer ← Renamer.resolve o.namingConvention o.transformUnderscore
  return ⟨o.moduleName.getD defaultModuleName, renamer, Affixes.ofOptions o⟩

namespace Settings

/-- The name of the constant that a fragment becomes. -/
def fragmentConstantName (s : Settings) (name : String) : String :=
  s.affixes.fragmentPrefix ++ s.renamer.rename name .typeNames ++ s.affixes.fragmentSuffix

/-- The name of the constant that an operation becomes. -/
def operationConstantName (s : Settings) (name : String) : String :=
  s.affixes.documentPrefix ++ s.renamer.rename name .typeNames ++ s.affixes.documentSuffix

end Settings

end QueryModule.Config
