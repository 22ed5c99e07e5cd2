import QueryModule.Command.Word
import QueryModule.Text.Lines

/-!
# Arguments of a command

Both commands take the same arguments: options in any order, and the paths of the documents between
and behind them. A value is taken when the next option or path shows that it is complete, or at the
end, and it is then that its faults come to light; an option that does not exist is noticed at once,
and so wins over faults in the value before it.
-/

namespace QueryModule.Command

/-- Why a command line is not understood. -/
inductive UsageError where
  /-- There is no command. -/
  | noCommand
  | unknownCommand
  | unknownOption
  /-- An option without its value, or an empty path. -/
  | missingValue
  /-- An option twice that can be there once. -/
  | repeatedOption
  /-- A value for an option that takes none. -/
  | needlessValue
  /-- Neither the output nor the documents can be left out. -/
  | missingArgument
  deriving DecidableEq, Repr

/-- Why a command line leads to no run of a command. -/
inductive Halt where
  | help
  | version
  | misuse (error : UsageError)
  deriving DecidableEq, Repr

/-- What a command works on. -/
structure Arguments where
  /-- The file with the options of the generator. -/
  config : Option String
  /-- Where fragments are found that may be spread but are not generated. -/
  externalFragments : List String
  /-- The extensions of documents. -/
  fileExtensions : List String
  /-- The file for the module. -/
  output : String
  schema : Option String
  /-- Where documents are found. -/
  documents : List String
  deriving DecidableEq, Repr

/-- The options of a command. -/
inductive OptionName where
  | config
  | externalFragments
  | fileExtensions
  | output
  | schema
  deriving DecidableEq, Repr

namespace OptionName

/-- The option of a long form. -/
def ofName? : String → Option OptionName
  | "config" => some config
  | "external-fragments" => some externalFragments
  | "graphql-file-exts" => some fileExtensions
  | "output" => some output
  | "schema" => some schema
  | _ => none

/-- The option of a short form. -/
def ofLetter? : Char → Option OptionName
  | 'c' => some config
  | 'o' => some output
  | 's' => some schema
  | _ => none

end OptionName

/-- The extensions that documents have when none are given. -/
def defaultExtensions : List String := ["graphql", "gql"]

/-- The arguments as far as they have been taken. -/
structure Draft where
  config : Option String := none
  externalFragments : List String := []
  /-- The extensions that are given; when one is given, the usual ones no longer count. -/
  fileExtensions : List String := []
  output : Option String := none
  schema : Option String := none
  documents : List String := []
  deriving DecidableEq, Repr

namespace Draft

/-- The pieces of a value that is a list. -/
def pieces (value : String) : List String := (Text.splitAt ',' value.toList).map String.ofList

/-- A path that can be given once. -/
def once (known : Option String) (path : String) : Except UsageError (Option String) :=
  if known.isSome then .error .repeatedOption
  else if path = "" then .error .missingValue
  else .ok (some path)

/-- More paths, none of which is empty. -/
def more (known paths : List String) : Except UsageError (List String) :=
  if paths.contains "" then .error .missingValue else .ok (known ++ paths)

/-- Takes the value of an option. -/
def takeOption (d : Draft) (name : OptionName) (value : String) : Except UsageError Draft :=
  match name with
  | .config => (once d.config value).map fun path => { d with config := path }
  | .output => (once d.output value).map fun path => { d with output := path }
  | .schema => (once d.schema value).map fun path => { d with schema := path }
  | .externalFragments =>
    (more d.externalFragments (pieces value)).map fun paths => { d with externalFragments := paths }
  | .fileExtensions => .ok { d with fileExtensions := d.fileExtensions ++ pieces value }

/-- Takes the paths of documents. -/
def takeDocuments (d : Draft) (paths : List String) : Except UsageError Draft :=
  (more d.documents paths).map fun paths => { d with documents := paths }

/-- The arguments that everything together amounts to. -/
def complete (d : Draft) : Except UsageError Arguments :=
  match d.output, d.documents with
  | none, _ | _, [] => .error .missingArgument
  | some output, documents => .ok
    { config := d.config
      externalFragments := d.externalFragments
      fileExtensions := if d.fileExtensions.isEmpty then defaultExtensions else d.fileExtensions
      output := output
      schema := d.schema
      documents := documents }

end Draft

/-- What has been read and not been taken yet. -/
inductive Pending where
  | nothing
  /-- An option, with its value if that has been read. -/
  | option (name : OptionName) (value : Option String)
  /-- Paths of documents. -/
  | documents (paths : List String)
  deriving DecidableEq, Repr

/-- The state of reading arguments. -/
structure Reading where
  draft : Draft := {}
  pending : Pending := .nothing
  /-- Behind the mark that ends the options every word is a path. -/
  pathsOnly : Bool := false
  deriving DecidableEq, Repr

namespace Reading

/-- Takes what is pending. -/
def settle (r : Reading) : Except UsageError Reading :=
  match r.pending with
  | .nothing => .ok r
  | .option _ none => .error .missingValue
  | .option name (some value) =>
    (r.draft.takeOption name value).map fun d => { r with draft := d, pending := .nothing }
  | .documents paths =>
    (r.draft.takeDocuments paths).map fun d => { r with draft := d, pending := .nothing }

/-- A path of documents that other paths may follow. -/
def readPath (r : Reading) (path : String) : Except UsageError Reading :=
  match r.pending with
  | .documents paths => .ok { r with pending := .documents (paths ++ [path]) }
  | _ => r.settle.map fun r => { r with pending := .documents [path] }

/-- A word that is no option: the value of the option in front of it, or a path. -/
def readPlain (r : Reading) (text : String) : Except UsageError Reading :=
  match r.pending with
  | .option name none => .ok { r with pending := .option name (some text) }
  | _ => r.readPath text

/-- An option, whose value is taken at once if it is attached. -/
def readOption (r : Reading) (name : OptionName) (value : Option String) :
    Except UsageError Reading := do
  let r ← r.settle
  match value with
  | none => return { r with pending := .option name none }
  | some value => (r.draft.takeOption name value).map fun d => { r with draft := d }

/-- A request for help, which is granted if there is no fault in front of it. -/
def requestHelp (r : Reading) : Halt :=
  match r.settle with
  | .error e => .misuse e
  | .ok _ => .help

/-- Reads one word. -/
def step (r : Reading) (word : String) : Except Halt Reading :=
  if r.pathsOnly then (r.readPath word).mapError .misuse
  else
    match Word.ofText word with
    | .endOfOptions => .ok { r with pathsOnly := true }
    | .plain text => (r.readPlain text).mapError .misuse
    | .long "help" none => .error r.requestHelp
    | .long "help" (some _) => .error (.misuse .needlessValue)
    | .long name value =>
      match OptionName.ofName? name with
      | none => .error (.misuse .unknownOption)
      | some name => (r.readOption name value).mapError .misuse
    | .short 'h' _ => .error r.requestHelp
    | .short letter rest =>
      match OptionName.ofLetter? letter with
      | none => .error (.misuse .unknownOption)
      | some name => (r.readOption name (attachedValue rest)).mapError .misuse

/-- The arguments after the last word. -/
def finish (r : Reading) : Except UsageError Arguments := do
  let r ← r.settle
  r.draft.complete

end Reading

/-- The arguments that the words behind the name of a command say. -/
def Arguments.ofWords (words : List String) : Except Halt Arguments := do
  let r ← words.foldlM Reading.step {}
  r.finish.mapError .misuse

end QueryModule.Command
