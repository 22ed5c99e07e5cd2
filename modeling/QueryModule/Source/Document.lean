import QueryModule.Graphql.Grammar
import QueryModule.Schema.Declaration
import QueryModule.Source.Reading

/-!
# Sources

Documents and schemas together with the files they come from, and how they are loaded from there. A
document can also be present without having been parsed; it then takes part in nothing.
-/

namespace QueryModule

open QueryModule.Graphql

/-- Why a source yields no document or schema. -/
inductive SourceError where
  | unreadable (error : ReadError)
  | malformed (file : Option String) (error : SyntaxError)
  deriving DecidableEq, Repr

/-- Where a source comes from, in front of an error. -/
def atFile (file : Option String) : String :=
  match file with
  | some path => " at " ++ path
  | none => ""

/-- What the error says of a document. -/
def SourceError.documentMessage : SourceError → String
  | .unreadable e => e.message
  | .malformed file e =>
    "Failed to parse GraphQL document" ++ atFile file ++ ": query parse error: " ++ e.message

/-- What the error says of a schema. -/
def SourceError.schemaMessage : SourceError → String
  | .unreadable e => e.message
  | .malformed file e =>
    "Failed to parse schema" ++ atFile file ++ ": schema parse error: " ++ e.message

/-- A document and the file it comes from. -/
structure SourceDocument where
  file : Option String
  /-- The definitions of the document, unless it has not been parsed. -/
  definitions : Option (List Definition)
  deriving Repr, BEq

/-- The document in a source. -/
def SourceDocument.ofText (file : Option String) (source : String) :
    Except SourceError SourceDocument :=
  match parseDocument source with
  | .ok definitions => .ok ⟨file, some definitions⟩
  | .error e => .error (.malformed file e)

/-- The document in the file that a path leads to. -/
def SourceDocument.load (t : FileTree) (path : String) : Logged SourceError SourceDocument := do
  let source ← (t.readText path).mapError .unreadable
  Logged.ofExcept (SourceDocument.ofText (some path) source)

/-- A document that has not been parsed. -/
def SourceDocument.unparsed (file : Option String) : SourceDocument := ⟨file, none⟩

/-- A schema and the file it comes from. -/
structure SourceSchema where
  file : Option String
  declarations : List Schema.Declaration
  deriving Repr, DecidableEq

/-- The schema that declares nothing. -/
def SourceSchema.empty : SourceSchema := ⟨none, []⟩

/-- The schema in a source. -/
def SourceSchema.ofText (file : Option String) (source : String) :
    Except SourceError SourceSchema :=
  match Schema.parse source with
  | .ok declarations => .ok ⟨file, declarations⟩
  | .error e => .error (.malformed file e)

/-- The schema in the file that a path leads to. -/
def SourceSchema.load (t : FileTree) (path : String) : Logged SourceError SourceSchema := do
  let source ← (t.readText path).mapError .unreadable
  Logged.ofExcept (SourceSchema.ofText (some path) source)

/-- A definition and the file it comes from. -/
structure SourcedDefinition where
  definition : Definition
  file : Option String
  deriving Repr, BEq

/-- The definitions of a document with their file; there are none when it has not been parsed. -/
def SourceDocument.sourced (d : SourceDocument) : List SourcedDefinition :=
  (d.definitions.getD []).map (⟨·, d.file⟩)

/-- All definitions of some documents in order. -/
def combine (documents : List SourceDocument) : List SourcedDefinition :=
  documents.flatMap (·.sourced)

end QueryModule
