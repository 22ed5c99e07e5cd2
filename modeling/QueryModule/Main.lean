import QueryModule.Command.Program

/-!
# The command line

The program at work: the files below the working directory are read into a tree, the program runs on
this tree, and what it has changed there is written back. All decisions are made by
`Command.program`; here are only the reading, the printing and the writing.
-/

namespace QueryModule.Command

/-- How the program is called. -/
def usageText : String :=
  "Usage: graphql-elixir [-v] (generate | validate) -o OUTPUT [-s SCHEMA] [-c CONFIG]\n"
    ++ "  [--external-fragments PATHS] [--graphql-file-exts EXTENSIONS] DOCUMENT_PATHS...\n"

/-- What is wrong with a command line, in words. -/
def usageFault : UsageError → String
  | .noCommand => "a command is missing"
  | .unknownCommand => "there is no such command"
  | .unknownOption => "there is no such option"
  | .missingValue => "a value is missing"
  | .repeatedOption => "an option is there twice"
  | .needlessValue => "an option has a value that takes none"
  | .missingArgument => "the output or the documents are missing"

/-- A path as the place that it names. -/
def placePath (place : Place) : String := "/".intercalate place

/-- The entries at and below a place of the disk. A link is kept as a link to what it leads to, if that
is below the working directory. -/
partial def readEntries (root : String) (place : Place) (entry : IO.FS.DirEntry) :
    IO (List (Place × Entry)) := do
  let path := entry.path
  match (← path.symlinkMetadata).type with
  | .dir =>
    let below ← (← path.readDir).toList.mapM fun child =>
      readEntries root (place ++ [child.fileName]) child
    return (place, .directory) :: below.flatten
  | .file => return [(place, .file (← IO.FS.readBinFile path).toList)]
  | .symlink =>
    let target := (← IO.FS.realPath path).toString
    if target.startsWith root then return [(place, .link (target.drop root.length).toString)]
    else return []
  | .other => return []

/-- The tree below the working directory. -/
def readTree : IO FileTree := do
  let here ← IO.FS.realPath (← IO.currentDir)
  let entries ← (← here.readDir).toList.mapM fun entry =>
    readEntries here.toString [entry.fileName] entry
  return ⟨entries.flatten⟩

/-- Writes back what has changed in the tree: new directories, and files. -/
def writeChanges (before after : FileTree) : IO Unit := do
  for (place, entry) in after.entries do
    if entry = .directory && before.get? place ≠ some .directory then
      IO.FS.createDirAll (placePath place)
  for (place, content) in before.changedFiles after do
    IO.FS.writeBinFile (placePath place) (ByteArray.mk content.toArray)

end QueryModule.Command

open QueryModule QueryModule.Command in
/-- Runs the program and ends with its exit code. -/
def main (words : List String) : IO UInt32 := do
  let before ← readTree
  let (after, run) := program before words (← IO.getEnv "LOG_LEVEL")
  writeChanges before after
  match run with
  | .error .help =>
    IO.print usageText
    return 0
  | .error .version =>
    IO.print versionText
    return 0
  | .error (.misuse fault) =>
    IO.eprint s!"error: {usageFault fault}\n{usageText}"
    return 2
  | .ok shown =>
    for entry in shown.log do
      IO.eprintln s!"{entry.level.label} {entry.message}"
    IO.print shown.output
    IO.eprint shown.errors
    return if shown.succeeds then 0 else 1
