import QueryModule.FileTree.Tree
import QueryModule.Log
import QueryModule.Text.Quoted
import QueryModule.Text.Utf8

/-!
# Reading files

Sources are read from the files of a tree as UTF-8 text. A path can fail to lead to a file, and a file
can fail to hold a text. A byte-order mark in front of a text is no part of it, so that the first token
of a source is where an editor shows it: in line one, column one.
-/

namespace QueryModule

/-- Why a path yields no text. -/
inductive ReadError where
  /-- The file is no UTF-8; the offset is that of the first byte that belongs to no character. -/
  | notUtf8 (path : String) (offset : Nat)
  /-- There is no file at the path. -/
  | notAFile (path : String)
  deriving DecidableEq, Repr

/-- The error in words. -/
def ReadError.message : ReadError → String
  | .notUtf8 path offset =>
    Text.quotedPath path ++ s!" is not valid UTF-8 (invalid byte at offset {offset})"
  | .notAFile path => "Path is not a file: " ++ Text.quotedPath path

/-- The mark that some editors put in front of a text. -/
def byteOrderMark : Char := '\ufeff'

/-- A text without the byte-order mark that it may start with. Only one is dropped. -/
def dropByteOrderMark (text : String) : String :=
  match text.toList with
  | [] => text
  | c :: rest => if c = byteOrderMark then String.ofList rest else text

/-- The text in the file that a path leads to. -/
def FileTree.readText (t : FileTree) (path : String) : Logged ReadError String := do
  match t.content? path with
  | none => Logged.ofExcept (.error (.notAFile path))
  | some content =>
    let text ← Logged.ofExcept ((Text.Utf8.decode content).mapError (.notUtf8 path))
    Logged.note .trace s!"Read {content.length} bytes from {Text.quotedPath path}."
    return dropByteOrderMark text

end QueryModule
