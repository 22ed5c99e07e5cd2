import QueryModule.FileTree.Path

/-!
# File trees

A file tree is a value: it maps places to files, directories and symbolic links. A place is the list
of names that leads to an entry from the root of the tree without passing through a link. Paths, in
contrast, may pass through links; `resolve` finds the place that a path leads to.
-/

namespace QueryModule

/-- The names on the way from the root of a file tree to an entry. -/
abbrev Place := List String

/-- What can be at a place. -/
inductive Entry where
  | file (content : List UInt8)
  | directory
  /-- A symbolic link; its target starts at the directory of the link. -/
  | link (target : String)
  deriving DecidableEq, Repr

/-- Entries and their places. The root is always there and not listed. -/
structure FileTree where
  entries : List (Place × Entry)
  deriving DecidableEq, Repr

/-- Why an operation on a file tree fails. -/
inductive FileError where
  | notFound
  | exists
  | notADirectory
  | isADirectory
  | tooManyLinks
  deriving DecidableEq, Repr

/-- The error in words, with its number. -/
def FileError.message : FileError → String
  | .notFound => "No such file or directory (os error 2)"
  | .exists => "File exists (os error 17)"
  | .notADirectory => "Not a directory (os error 20)"
  | .isADirectory => "Is a directory (os error 21)"
  | .tooManyLinks => "Too many levels of symbolic links (os error 40)"

namespace FileTree

/-- The tree without entries. -/
def empty : FileTree := ⟨[]⟩

/-- The entry at a place. -/
def get? (t : FileTree) (place : Place) : Option Entry :=
  if place = [] then some .directory else t.entries.lookup place

/-- Sets one entry of a list of entries. -/
def putIn (place : Place) (entry : Entry) : List (Place × Entry) → List (Place × Entry)
  | [] => [(place, entry)]
  | (p, e) :: rest => if p = place then (place, entry) :: rest else (p, e) :: putIn place entry rest

/-- The tree with an entry at a place, in the stead of the one that may be there. -/
def put (t : FileTree) (place : Place) (entry : Entry) : FileTree := ⟨putIn place entry t.entries⟩

/-- What becomes of a link that a path ends in, and of a name that is not there. -/
inductive Ending where
  /-- A link is followed, and the name has to be there. -/
  | follow
  /-- A link is where the path leads. -/
  | keep
  /-- A link is followed, and the name need not be there. -/
  | create
  deriving DecidableEq, Repr

/-- How many links a path may pass through. -/
def maxLinks : Nat := 40

/-- The place that some steps lead to from a directory, where at most so many links are followed. -/
def resolveFrom (t : FileTree) (ending : Ending) (links : Nat) (here : Place) :
    List String → Except FileError Place
  | [] => .ok here
  | step :: rest =>
    if step = "." then resolveFrom t ending links here rest
    else if step = ".." then resolveFrom t ending links here.dropLast rest
    else
      let place := here ++ [step]
      match t.get? place with
      | none => if rest.isEmpty && ending = .create then .ok place else .error .notFound
      | some .directory => resolveFrom t ending links place rest
      | some (.file _) => if rest.isEmpty then .ok place else .error .notADirectory
      | some (.link target) =>
        if rest.isEmpty && ending = .keep then .ok place
        else
          match links with
          | 0 => .error .tooManyLinks
          | links + 1 =>
            resolveFrom t ending links (if Path.isAbsolute target then [] else here)
              (Path.steps target ++ rest)
termination_by steps => (links, steps.length)

/-- The place that a path leads to. -/
def resolve (t : FileTree) (ending : Ending) (path : String) : Except FileError Place :=
  if path = "" then .error .notFound else t.resolveFrom ending maxLinks [] (Path.steps path)

/-- The content of the file that a path leads to. -/
def content? (t : FileTree) (path : String) : Option (List UInt8) :=
  match t.resolve .follow path with
  | .error _ => none
  | .ok place =>
    match t.get? place with
    | some (.file content) => some content
    | _ => none

/-- Does the path lead to a directory? -/
def isDirectory (t : FileTree) (path : String) : Bool :=
  match t.resolve .follow path with
  | .error _ => false
  | .ok place => t.get? place = some .directory

/-- Writes a file, which is created if it is not there. -/
def write (t : FileTree) (path : String) (content : List UInt8) : Except FileError FileTree := do
  let place ← t.resolve .create path
  match t.get? place with
  | some .directory => throw .isADirectory
  | _ => return t.put place (.file content)

/-- The place of a new entry, whose directory has to be there and which itself must not. -/
def vacancy (t : FileTree) (path : String) : Except FileError Place := do
  let steps := Path.steps path
  match steps.getLast? with
  | none => throw (if path = "" then .notFound else .exists)
  | some name =>
    let parent ← t.resolveFrom .follow maxLinks [] steps.dropLast
    if t.get? parent ≠ some .directory then throw .notADirectory
    if name = "." || name = ".." then throw .exists
    match t.get? (parent ++ [name]) with
    | some _ => throw .exists
    | none => return parent ++ [name]

/-- Makes a directory; the one that it is in has to be there. -/
def makeDirectory (t : FileTree) (path : String) : Except FileError FileTree := do
  return t.put (← t.vacancy path) .directory

/-- A path, its parent, the parent of that, and so on; the length of the path bounds their number. -/
def ancestry (path : String) : List String := go path.length path
where
  /-- The first so many of them. -/
  go : Nat → String → List String
    | 0, path => [path]
    | n + 1, path =>
      match Path.parent? path with
      | none => [path]
      | some parent => path :: go n parent

/-- Makes a directory and those that it is in, given its path and those above it, unless they are
there. What has been made before a failure stays. -/
def makeAll (t : FileTree) : List String → FileTree × Except FileError Unit
  | [] => (t, .ok ())
  | path :: above =>
    if path = "" then (t, .ok ())
    else
      match t.makeDirectory path with
      | .ok made => (made, .ok ())
      | .error .notFound =>
        match t.makeAll above with
        | (t, .error e) => (t, .error e)
        | (t, .ok ()) =>
          match t.makeDirectory path with
          | .ok made => (made, .ok ())
          | .error e => (t, if t.isDirectory path then .ok () else .error e)
      | .error e => (t, if t.isDirectory path then .ok () else .error e)

/-- Makes a directory and those that it is in, unless they are there. -/
def makeDirectories (t : FileTree) (path : String) : FileTree × Except FileError Unit :=
  t.makeAll (ancestry path)

/-- The tree with an entry at a path, and the directories that it is in. -/
def install (t : FileTree) (path : String) (entry : Entry) : Except FileError FileTree := do
  let (t, made) := t.makeDirectories ((Path.parent? path).getD "")
  made
  return t.put (← t.vacancy path) entry

/-- The files of a tree that another tree does not have in the same form. -/
def changedFiles (before after : FileTree) : List (Place × List UInt8) :=
  after.entries.filterMap fun (place, entry) =>
    match entry with
    | .file content => if before.get? place = some entry then none else some (place, content)
    | _ => none

end FileTree

end QueryModule
