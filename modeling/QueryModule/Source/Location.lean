/-!
# Places in a source

A `Position` is a line and a column, both counted from one; a `Location` adds the file that the
position is in. Sources that were never in a file are shown as `<str>`.
-/

namespace QueryModule

/-- A line and a column, counted from one. -/
structure Position where
  line : Nat
  column : Nat
  deriving DecidableEq, Repr

/-- The position of the first character of a source. -/
def Position.start : Position := ⟨1, 1⟩

/-- The position behind a piece of text: columns count characters, and lines end with line feeds. -/
def Position.after (p : Position) : List Char → Position
  | [] => p
  | c :: rest =>
    if c = '\n' then Position.after ⟨p.line + 1, 1⟩ rest
    else Position.after ⟨p.line, p.column + 1⟩ rest

/-- A position in a file, or in a source without a file. -/
structure Location where
  file : Option String
  position : Position
  deriving DecidableEq, Repr

/-- A location as editors and terminals link it: `path:line:column`. -/
def Location.text (l : Location) : String :=
  let file := l.file.getD "<str>"
  s!"{file}:{l.position.line}:{l.position.column}"

end QueryModule
