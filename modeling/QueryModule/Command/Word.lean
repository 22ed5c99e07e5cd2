/-!
# Words of a command line

How a single word of a command line reads, whatever it is a word for: as an option in its long or its
short form, as the mark behind which there are no more options, or as itself. A lone dash reads as
itself, and what an attached value is depends on the option.
-/

namespace QueryModule.Command

/-- How a word reads. -/
inductive Word where
  /-- Two dashes: no word behind them is an option. -/
  | endOfOptions
  /-- Two dashes and a name, and the value behind an equals sign if there is one. -/
  | long (name : String) (value : Option String)
  /-- A dash and at least one letter. -/
  | short (letter : Char) (rest : List Char)
  | plain (text : String)
  deriving DecidableEq, Repr

/-- Reads a word. -/
def Word.ofText (text : String) : Word :=
  match text.toList with
  | '-' :: '-' :: [] => .endOfOptions
  | '-' :: '-' :: rest =>
    let value :=
      match rest.dropWhile (· ≠ '=') with
      | [] => none
      | _ :: value => some (String.ofList value)
    .long (String.ofList (rest.takeWhile (· ≠ '='))) value
  | '-' :: letter :: rest => .short letter rest
  | _ => .plain text

/-- The value that is attached to the letter of an option, with or without an equals sign. -/
def attachedValue : List Char → Option String
  | [] => none
  | '=' :: value => some (String.ofList value)
  | value => some (String.ofList value)

end QueryModule.Command
