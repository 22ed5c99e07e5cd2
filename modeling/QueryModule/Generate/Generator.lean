import QueryModule.Elixir.Module
import QueryModule.Fragment.Pool
import QueryModule.Generate.NameClash
import QueryModule.Log

/-!
# Generating a module

From documents and options to an Elixir module with one constant for each local fragment and each
named operation. The stages, in order: the options are resolved, the fragments are collected and
merged, the spreads of the named operations are checked, and so are the generated names. The first
stage that fails decides the error, and reports all that it finds.
-/

namespace QueryModule.Generate

open QueryModule.Config (Options Settings)
open QueryModule.Elixir (Module)
open QueryModule.Fragment (Pool FragmentError SourcedFragment Registry)
open QueryModule.Graphql
open QueryModule.Naming (Casing NamingConvention SelectorError Treatment)

/-- What a module is generated from. -/
structure Inputs where
  schema : SourceSchema
  documents : List SourceDocument
  options : Options
  externals : List SourcedFragment

/-- Why no module is generated. -/
inductive GenerateError where
  | selector (error : SelectorError)
  | fragments (errors : List FragmentError)
  | nameClash (clash : NameClash)
  /-- The file for the module is no Elixir source file. -/
  | wrongExtension (output : String)
  deriving DecidableEq, Repr

/-- The name of the generator in messages. -/
def generatorName : String := "elixir-document-nodes"

/-- The extension that the file for the module has to have. -/
def outputExtension : String := ".ex"

/-- The error in words. -/
def GenerateError.message : GenerateError → String
  | .selector e => e.message
  | .fragments errors =>
    "Invalid fragments:\n" ++ "\n".intercalate (errors.map fun e => "  * " ++ e.message)
  | .nameClash clash => clash.message
  | .wrongExtension _ =>
    s!"Plugin \"{generatorName}\" requires extension to be \"{outputExtension}\"!"

/-- Checks that a module can be written to a file: its path has to end in the right extension. -/
def checkOutput (output : String) : Except GenerateError Unit :=
  if output.endsWith outputExtension then .ok () else .error (.wrongExtension output)

/-- How a log shows a casing. -/
def casingLabel : Casing → String
  | .camel => "Camel"
  | .capital => "Capital"
  | .constant => "Constant"
  | .dot => "Dot"
  | .header => "Header"
  | .no => "No"
  | .param => "Param"
  | .pascal => "Pascal"
  | .path => "Path"
  | .sentence => "Sentence"
  | .snake => "Snake"
  | .title => "Title"
  | .lower => "Lower"
  | .lowerFirst => "LowerFirst"
  | .upper => "Upper"
  | .upperFirst => "UpperFirst"

/-- How a log shows what is done to the names of one category. -/
def treatmentLabel : Option Treatment → String
  | none => "None"
  | some .keep => "Some(Keep)"
  | some (.transform t) => s!"Some(Transform({casingLabel t}))"

/-- How a log shows a convention. -/
def conventionLabel : NamingConvention → String
  | .keep => "Keep"
  | .single t => s!"Single({casingLabel t})"
  | .perCategory enumValues typeNames =>
    "PerCategory \x7b enum_values: " ++ treatmentLabel enumValues ++ ", type_names: "
      ++ treatmentLabel typeNames ++ " \x7d"

/-- Resolves the options. -/
def resolveSettings (options : Options) : Logged GenerateError Settings := do
  let settings ← Logged.ofExcept ((Settings.resolve options).mapError .selector)
  let label := conventionLabel settings.renamer.convention
  let flag := settings.renamer.transformUnderscore
  Logged.note .trace s!"Resolved naming convention {label} (transform_underscore={flag})."
  return settings

/-- What is reported when documents are put together. -/
def combineEntries (documents : List SourceDocument) : List LogEntry :=
  let skipped := documents.filter (·.definitions.isNone)
  let shown (file : Option String) : String :=
    match file with
    | some path => s!"Some({Text.quotedPath path})"
    | none => "None"
  let parsed := documents.length - skipped.length
  skipped.map (fun d => ⟨.trace, s!"Skipping unparsed document {shown d.file}."⟩) ++
    [⟨.debug, s!"Concatenated {(combine documents).length} definitions from {parsed} documents "
      ++ s!"({skipped.length} skipped)."⟩]

/-- Collects the fragments of the documents and the external ones. -/
def collect (definitions : List SourcedDefinition) (externals : List SourcedFragment) :
    Except (List FragmentError) Pool :=
  let (p, errors) := Pool.empty.addDefinitions definitions
  let (p, more) := p.addExternals externals
  match errors ++ more with
  | [] => .ok p
  | errors => .error errors

/-- Merges the collected fragments into a registry. -/
def mergeFragments (p : Pool) : Logged (List FragmentError) Registry := do
  Logged.notes (p.shadowed.map fun f =>
    ⟨.debug, s!"Local fragment `{f.name}` shadows the external fragment "
      ++ s!"defined at {f.location.text}."⟩)
  let registry ← Logged.ofExcept p.toRegistry
  Logged.note .debug s!"Built fragment registry with {registry.fragments.length} fragments."
  return registry

/-- An error for every spread in a named operation that is not registered. -/
def undefinedInOperations (r : Registry) (definitions : List SourcedDefinition) :
    List FragmentError :=
  definitions.flatMap fun d =>
    match d.definition.operation? with
    | none => []
    | some o =>
      match o.name? with
      | none => []
      | some name => r.undefinedInOperation name d.file o.selections

/-- Checks that every spread in a named operation is registered. Operations without a name are not
generated, and so theirs do not matter. -/
def checkOperations (r : Registry) (definitions : List SourcedDefinition) :
    Except (List FragmentError) Unit :=
  match undefinedInOperations r definitions with
  | [] => .ok ()
  | errors => .error errors

/-- A warning for every operation without a name. -/
def anonymousEntries (definitions : List SourcedDefinition) : List LogEntry :=
  (anonymousOperations definitions).map fun p =>
    ⟨.warn, s!"Skipping anonymous operation at line {p.line}, column {p.column}: "
      ++ "only named operations are emitted."⟩

/-- A constant as an Elixir function. -/
def writeElixir : ConstantWriter := fun c => Elixir.constant c.name c.text

/-- The module with the constants of the local fragments and of the named operations. -/
def moduleOf (r : Registry) (s : Settings) (definitions : List SourcedDefinition) : Module :=
  .ofParts s.moduleName (fragmentBlock writeElixir r s)
    ((operationConstants r s definitions).map writeElixir)

/-- Generates a module. -/
def generate (inputs : Inputs) : Logged GenerateError Module := do
  let settings ← resolveSettings inputs.options
  Logged.note .debug <|
    s!"[{generatorName}] Generating module `{settings.moduleName}` from "
      ++ s!"{inputs.documents.length} documents "
      ++ s!"(schema has {inputs.schema.declarations.length} definitions)."
  Logged.notes (combineEntries inputs.documents)
  let definitions := combine inputs.documents
  let pool ← Logged.ofExcept ((collect definitions inputs.externals).mapError .fragments)
  let registry ← (mergeFragments pool).mapError .fragments
  Logged.ofExcept ((checkOperations registry definitions).mapError .fragments)
  Logged.ofExcept ((checkNames registry settings definitions).mapError .nameClash)
  Logged.notes (anonymousEntries definitions)
  return moduleOf registry settings definitions

end QueryModule.Generate
