import QueryModule.Text.Lines

/-!
# Elixir modules

The generated module: its head with a fixed documentation text, the constants, and its end.

A text becomes the value of a function without arguments, written as a heredoc: the lines of the text
between two delimiters of three quotation marks, indented as far as the closing one. Three things in
the text would not mean themselves there, and are escaped: backslashes, the start of an interpolation,
and the delimiter.
-/

namespace QueryModule.Elixir

open QueryModule.Text

/-- The delimiter of a heredoc. -/
def delimiter : List Char := ['"', '"', '"']

/-- The start of an interpolation. -/
def interpolation : List Char := ['#', '\x7b']

/-- The text as the body of a heredoc: backslashes are doubled, then interpolations get a backslash in
front, then every quotation mark of a delimiter does. -/
def heredocBody (text : List Char) : List Char :=
  replaceAll delimiter ['\\', '"', '\\', '"', '\\', '"']
    (replaceAll interpolation ('\\' :: interpolation) (replaceAll ['\\'] ['\\', '\\'] text))

/-- The indentation of a function. -/
def functionIndent : String := "  "

/-- The indentation of what is in a function. -/
def margin : String := "    "

/-- One line of the body with its line feed; an empty line gets no indentation. -/
def bodyLine (line : List Char) : String :=
  if line.isEmpty then "\n" else margin ++ String.ofList line ++ "\n"

/-- The function with a name whose value is a text. -/
def constant (name text : String) : String :=
  let mark := String.ofList delimiter
  functionIndent ++ "def " ++ name ++ " do\n" ++ margin ++ mark ++ "\n"
    ++ String.join ((lines (heredocBody text.toList)).map bodyLine)
    ++ margin ++ mark ++ "\n" ++ functionIndent ++ "end"

/-- The documentation of a generated module. -/
def docText : String := "Generated GraphQL queries"

/-- A module with the name it is given and the text between its head and its end. -/
structure Module where
  name : String
  body : String
  deriving DecidableEq, Repr

/-- The module that holds a block of fragments and, behind it, some definitions. There is a line feed
between each two of these, and so the body starts with one when the block is empty. -/
def Module.ofParts (name fragments : String) (definitions : List String) : Module :=
  ⟨name, "\n".intercalate (fragments :: definitions)⟩

/-- The text of a module, without a line feed at its end. -/
def Module.render (m : Module) : String :=
  "defmodule " ++ m.name ++ " do\n  @doc \"" ++ docText ++ "\"\n" ++ m.body ++ "\nend"

end QueryModule.Elixir
