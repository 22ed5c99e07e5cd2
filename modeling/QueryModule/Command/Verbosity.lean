import QueryModule.Log
import QueryModule.Text.Characters

/-!
# Verbosity

Which entries of the log are shown: those from a level on. The level is asked for on the command line
or named in the environment; a name that says nothing is ignored, and reported.
-/

namespace QueryModule.Command

/-- The level that applies when none is asked for. -/
def defaultLevel : Level := .info

/-- The level of a number, the most important one first. -/
def levelOfNumber? : Nat → Option Level
  | 1 => some .error
  | 2 => some .warn
  | 3 => some .info
  | 4 => some .debug
  | 5 => some .trace
  | _ => none

/-- The number that some characters write in decimal digits, perhaps behind a plus sign. -/
def number? (text : List Char) : Option Nat :=
  let digits :=
    match text with
    | '+' :: digits => digits
    | digits => digits
  if digits.isEmpty || !digits.all Char.isDigit then none else some (Text.natOfDigits digits)

/-- The level of a name, in capital or in small letters. -/
def levelOfName? (text : List Char) : Option Level :=
  [Level.error, .warn, .info, .debug, .trace].find? fun level =>
    text.map Char.toUpper = level.label.toList

/-- The level that a text names. -/
def levelOfText? (text : String) : Option Level :=
  let name := Text.trim text.toList
  if name = "VERBOSE".toList || name = "verbose".toList then some .debug
  else ((number? name).bind levelOfNumber?).or (levelOfName? name)

/-- What is shown of the log. -/
structure Verbosity where
  level : Level
  /-- The text in the environment that names no level. -/
  ignored : Option String
  deriving DecidableEq, Repr

namespace Verbosity

/-- The verbosity that the command line and the environment ask for; the command line wins. -/
def choose (verbose : Bool) (environment : Option String) : Verbosity :=
  if verbose then ⟨.debug, none⟩
  else
    match environment with
    | none => ⟨defaultLevel, none⟩
    | some text =>
      match levelOfText? text with
      | some level => ⟨level, none⟩
      | none => ⟨defaultLevel, some text⟩

/-- What is reported of the verbosity itself. -/
def entries (v : Verbosity) : List LogEntry :=
  ⟨.trace, s!"Logging at `{v.level.label}`."⟩ ::
    match v.ignored with
    | none => []
    | some text => [⟨.warn, s!"Ignoring unrecognized `LOG_LEVEL` value `{text}`."⟩]

/-- Is an entry shown? -/
def shows (v : Verbosity) (entry : LogEntry) : Bool := v.level.rank ≤ entry.level.rank

end Verbosity

end QueryModule.Command
