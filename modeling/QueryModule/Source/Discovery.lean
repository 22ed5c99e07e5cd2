import QueryModule.FileTree.Walk
import QueryModule.Log
import QueryModule.Text.Quoted

/-!
# Finding documents

Documents are given by paths of files and directories. Every file at or below a path counts, and is
taken if it has one of the extensions that are looked for. A file that is given by itself is taken
whatever its extension is. Every file that is met is either taken or skipped, unless a walk fails;
then nothing is found.
-/

namespace QueryModule

/-- The files that are taken, in the order in which they are met, and the number of the others. -/
structure Discovery where
  files : List String
  skipped : Nat
  deriving DecidableEq, Repr

/-- A walk from one of the given paths that failed. -/
structure DiscoveryError where
  input : String
  error : FileTree.WalkError
  deriving DecidableEq, Repr

namespace Discovery

/-- An extension without the dots that it may be written with. -/
def bareExtension (extension : String) : String :=
  String.ofList (extension.toList.dropWhile (· = '.'))

/-- Does a path have one of some extensions? -/
def hasExtension (extensions : List String) (path : String) : Bool :=
  match FileTree.Path.extension? path with
  | none => false
  | some extension => (extensions.map bareExtension).contains extension

/-- What is reported of a visit. -/
def visitEntry (extensions : List String) (v : FileTree.Visit) : LogEntry :=
  let shown := Text.quotedPath v.path
  if !v.isFile then ⟨.trace, s!"Skipping non-file: {shown}."⟩
  else if hasExtension extensions v.path then ⟨.trace, s!"Found GraphQL file at {shown}."⟩
  else ⟨.trace, s!"Skipping non-GraphQL file: {shown}."⟩

/-- The visits of a walk, up to the end or to the first error. -/
def survey (extensions : List String) :
    List (Except FileTree.WalkError FileTree.Visit) → Logged FileTree.WalkError (List FileTree.Visit)
  | [] => return []
  | .error e :: _ => Logged.ofExcept (.error e)
  | .ok v :: rest => do
    Logged.notes [visitEntry extensions v]
    return v :: (← survey extensions rest)

/-- The visits of the walks from some paths. -/
def surveyAll (t : FileTree) (extensions : List String) :
    List String → Logged DiscoveryError (List FileTree.Visit)
  | [] => return []
  | input :: others => do
    let visits ← (survey extensions (t.walk input)).mapError (⟨input, ·⟩)
    return visits ++ (← surveyAll t extensions others)

/-- Sorts the visits of files by their extension. -/
def ofVisits (extensions : List String) (visits : List FileTree.Visit) : Discovery :=
  let paths := (visits.filter (·.isFile)).map (·.path)
  ⟨paths.filter (hasExtension extensions), paths.countP fun p => !hasExtension extensions p⟩

/-- The extensions that are looked for, as a message shows them: each once, in increasing order. -/
def extensionList (extensions : List String) : String :=
  ", ".intercalate
    ((extensions.map fun e => "`." ++ bareExtension e ++ "`").eraseDups).mergeSort

/-- The file that is given by itself, if that is so. -/
def onlyFile? (t : FileTree) : List String → Option String
  | [input] => if (t.content? input).isSome then some input else none
  | _ => none

/-- Finds the documents at or below some paths. -/
def find (t : FileTree) (inputs extensions : List String) : Logged DiscoveryError Discovery := do
  Logged.note .debug s!"Scanning {inputs.length} input paths..."
  let visits ← surveyAll t extensions inputs
  let found := ofVisits extensions visits
  let found ←
    match found.files, onlyFile? t inputs with
    | [], some input => do
      Logged.note .warn <|
        s!"Proceeding with {Text.quotedPath input} even though it doesn't match any of the "
          ++ s!"--graphql-file-exts ({extensionList extensions})."
      pure ⟨[input], found.skipped - 1⟩
    | _, _ => pure found
  Logged.note .debug s!"Found {found.files.length} GraphQL documents."
  return found

end Discovery

/-- What the error says, and what lies behind it. -/
def DiscoveryError.chain (e : DiscoveryError) : List String :=
  ("Encountered an error while iterating recursive filesystem entities at/under "
    ++ Text.quotedPath e.input ++ ".") :: e.error.message :: e.error.reasons

end QueryModule
