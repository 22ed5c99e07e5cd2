import QueryModule.Text.Lines

/-!
# Paths

Paths are texts, as they are given and shown. Slashes cut them into pieces; empty pieces and single
dots mean nothing, except for a dot at the very start, which is part of how a path is written.
-/

namespace QueryModule.FileTree.Path

/-- Does the path start at the root? -/
def isAbsolute (path : String) : Bool := ['/'].isPrefixOf path.toList

/-- The pieces of a path between its slashes. -/
def pieces (path : String) : List String := (Text.splitAt '/' path.toList).map String.ofList

/-- The steps that lead along a path. A slash at the end is a step that stays where it is, which is
possible in a directory only. -/
def steps (path : String) : List String :=
  let named := (pieces path).filter (· ≠ "")
  if !named.isEmpty && (pieces path).getLast? = some "" then named ++ ["."] else named

/-- Pieces without those at their end that mean nothing. -/
def dropIdle : List String → List String
  | [] => []
  | piece :: rest =>
    match dropIdle rest with
    | [] => if piece = "" || piece = "." then [] else [piece]
    | kept => piece :: kept

/-- The pieces of a path without those at its end that mean nothing. A dot at the very start counts. -/
def ownPieces (path : String) : List String :=
  match pieces path with
  | [] => []
  | first :: rest =>
    if isAbsolute path || first = "" then dropIdle rest else first :: dropIdle rest

/-- The path without its last piece that means something; nothing has no parent. -/
def parent? (path : String) : Option String :=
  match (ownPieces path).reverse with
  | [] => none
  | _ :: others =>
    let kept :=
      match others.reverse with
      | [] => []
      | first :: rest =>
        if isAbsolute path then dropIdle (first :: rest) else first :: dropIdle rest
    some (if isAbsolute path then "/" ++ "/".intercalate kept else "/".intercalate kept)

/-- The path of an entry of a directory. -/
def join (directory name : String) : String :=
  if directory = "" || directory.endsWith "/" then directory ++ name else directory ++ "/" ++ name

/-- The text behind the last dot of a file name. A dot that starts the name does not count. -/
def extension? (path : String) : Option String :=
  let name := ((pieces path).getLastD "").toList
  let behind := (name.reverse.takeWhile (· ≠ '.')).reverse
  let before := name.take (name.length - behind.length - 1)
  if behind.length = name.length || before.isEmpty || name = ['.', '.'] then none
  else some (String.ofList behind)

end QueryModule.FileTree.Path
