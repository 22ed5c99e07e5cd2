import QueryModule.Command.Line
import QueryModule.Config.Error
import QueryModule.Generate.Generator
import QueryModule.Source.Discovery
import QueryModule.Source.Document

/-!
# Running a command

A command loads its sources from a tree of files and generates a module; `validate` stops there, and
`generate` writes the module. Everything that can go wrong with the sources goes wrong before the
first change to the tree, and so both commands fail alike up to that point.
-/

namespace QueryModule.Command

open QueryModule.Config (OptionsError Options)
open QueryModule.Generate (GenerateError Inputs checkOutput)
open QueryModule.Fragment (SourcedFragment externalsOf)

/-- Why a command fails. -/
inductive RunError where
  | schema (path : String) (error : SourceError)
  | config (path : String) (error : OptionsError)
  | discovery (error : DiscoveryError)
  | document (error : SourceError)
  | generation (error : GenerateError)
  /-- The directory for the module cannot be made. -/
  | directory (path : String) (error : FileError)
  /-- The file for the module cannot be written. -/
  | output (path : String) (error : FileError)
  deriving DecidableEq, Repr

/-- What the error says, from what was tried to what lies behind it. -/
def RunError.chain : RunError → List String
  | .schema path e => ["Failed to load schema " ++ Text.quotedPath path, e.schemaMessage]
  | .config path e => ["Failed to load config " ++ Text.quotedPath path, e.message, e.reason]
  | .discovery e => e.chain
  | .document e => [e.documentMessage]
  | .generation e => [e.message]
  | .directory path e => ["Failed to create " ++ Text.quotedPath path, e.message]
  | .output path e => ["Failed to write " ++ Text.quotedPath path, e.message]

/-- The error in words. -/
def RunError.message (e : RunError) : String := ": ".intercalate e.chain

/-- The schema that is given, or the empty one. -/
def loadSchema (t : FileTree) : Option String → Logged RunError SourceSchema
  | some path => (SourceSchema.load t path).mapError (.schema path)
  | none => do
    Logged.note .debug "No --schema given; generating against an empty schema."
    return .empty

/-- The options that are given, or none. -/
def loadOptions (t : FileTree) : Option String → Logged RunError Options
  | some path => (Options.load t path).mapError (.config path)
  | none => return {}

/-- The documents in some files. -/
def loadDocuments (t : FileTree) : List String → Logged RunError (List SourceDocument)
  | [] => return []
  | path :: others => do
    let document ← (SourceDocument.load t path).mapError .document
    return document :: (← loadDocuments t others)

/-- The fragments at or below some paths, if any paths are given. -/
def loadExternals (t : FileTree) (paths extensions : List String) :
    Logged RunError (List SourcedFragment) := do
  if paths.isEmpty then return []
  let found ← (Discovery.find t paths extensions).mapError .discovery
  let fragments := (← loadDocuments t found.files).flatMap externalsOf
  Logged.note .debug s!"Loaded {fragments.length} external fragments."
  return fragments

/-- What a module is generated from, and how many files were skipped on the way. -/
structure Loaded where
  inputs : Inputs
  skipped : Nat

/-- Loads everything that the arguments name. -/
def load (t : FileTree) (a : Arguments) : Logged RunError Loaded := do
  let schema ← loadSchema t a.schema
  let options ← loadOptions t a.config
  let found ← (Discovery.find t a.documents a.fileExtensions).mapError .discovery
  let documents ← loadDocuments t found.files
  let externals ← loadExternals t a.externalFragments a.fileExtensions
  return ⟨⟨schema, documents, options, externals⟩, found.skipped⟩

/-- A module that has not been written, and how many files it was and was not made from. -/
structure Product where
  text : String
  documents : Nat
  skipped : Nat
  deriving DecidableEq, Repr

/-- Generates the module that the arguments ask for. -/
def produce (t : FileTree) (a : Arguments) : Logged RunError Product := do
  let loaded ← load t a
  Logged.ofExcept ((checkOutput a.output).mapError .generation)
  let m ← (Generate.generate loaded.inputs).mapError .generation
  return ⟨m.render, loaded.inputs.documents.length, loaded.skipped⟩

/-- What `validate` says when it succeeds. -/
def validatedSummary (p : Product) : String :=
  s!"All GraphQL documents validated successfully:\n  * Analyzed {p.documents} files.\n"
    ++ s!"  * Skipped {p.skipped} non-graphql files."

/-- Checks that a module can be generated. -/
def validate (t : FileTree) (a : Arguments) : Logged RunError String := do
  let p ← produce t a
  Logged.note .debug s!"Generated {p.text.utf8ByteSize} bytes (not written)."
  return validatedSummary p

/-- Makes the directory that a file is to be in, unless it is there. -/
def makeParent (t : FileTree) (path : String) : FileTree × Except RunError Unit :=
  match FileTree.Path.parent? path with
  | none => (t, .ok ())
  | some parent =>
    if parent = "" then (t, .ok ())
    else
      let (t, made) := t.makeDirectories parent
      (t, made.mapError (.directory parent))

/-- Writes a text to a file, and makes the directory that the file is in. -/
def save (t : FileTree) (path text : String) : FileTree × Except RunError Unit :=
  match makeParent t path with
  | (t, .error e) => (t, .error e)
  | (t, .ok ()) =>
    match t.write path (Text.Utf8.encode text) with
    | .error e => (t, .error (.output path e))
    | .ok t => (t, .ok ())

/-- What `generate` says when it succeeds. -/
def generatedSummary (output : String) (p : Product) : String :=
  s!"Generated {Text.quotedPath output}:\n  * Read {p.documents} GraphQL documents.\n"
    ++ s!"  * Skipped {p.skipped} non-graphql files."

/-- The text of the file for a module: the module and a line feed. -/
def Product.fileText (p : Product) : String := p.text ++ "\n"

/-- Generates a module and writes it. -/
def generate (t : FileTree) (a : Arguments) : FileTree × Logged RunError String :=
  let produced := produce t a
  match produced.result with
  | .error e => (t, ⟨produced.log, .error e⟩)
  | .ok p =>
    match save t a.output p.fileText with
    | (t, .error e) => (t, ⟨produced.log, .error e⟩)
    | (t, .ok ()) =>
      let size := p.fileText.utf8ByteSize
      let entry : LogEntry := ⟨.debug, s!"Wrote {size} bytes to {Text.quotedPath a.output}."⟩
      (t, ⟨produced.log ++ [entry], .ok (generatedSummary a.output p)⟩)

/-- Runs a command. -/
def run (t : FileTree) (action : Action) (a : Arguments) : FileTree × Logged RunError String :=
  match action with
  | .generate => generate t a
  | .validate => (t, validate t a)

end QueryModule.Command
