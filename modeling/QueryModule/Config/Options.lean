import QueryModule.Json.Reader

/-!
# Options

What a user can configure, as it is written down: a JSON object whose keys are the names of the
options. Every option can be absent or `null`, which means the same. Keys that are not known are
passed over. The options can also be given as a list, in the order of their declaration.
-/

namespace QueryModule.Config

open QueryModule.Json
open QueryModule.Json.Reader

/-- The naming convention as it is written: one selector for all names, or selectors for the two
categories of names. -/
inductive Convention where
  | selector (text : String)
  | perCategory (enumValues : Option String) (transformUnderscore : Option Bool)
      (typeNames : Option String)
  deriving DecidableEq, Repr

/-- The options as they are written. -/
structure Options where
  fragmentPrefix : Option String := none
  fragmentSuffix : Option String := none
  moduleName : Option String := none
  namePrefix : Option String := none
  nameSuffix : Option String := none
  namingConvention : Option Convention := none
  transformUnderscore : Option Bool := none
  deriving DecidableEq, Repr

/-- The options by name. -/
inductive OptionKey where
  | fragmentPrefix
  | fragmentSuffix
  | moduleName
  | namePrefix
  | nameSuffix
  | namingConvention
  | transformUnderscore
  deriving DecidableEq, Repr

namespace OptionKey

/-- All options, in the order in which a list gives their values. -/
def all : List OptionKey :=
  [fragmentPrefix, fragmentSuffix, moduleName, namePrefix, nameSuffix, namingConvention,
    transformUnderscore]

/-- The key of an option. -/
def text : OptionKey → String
  | fragmentPrefix => "fragmentPrefix"
  | fragmentSuffix => "fragmentSuffix"
  | moduleName => "moduleName"
  | namePrefix => "namePrefix"
  | nameSuffix => "nameSuffix"
  | namingConvention => "namingConvention"
  | transformUnderscore => "transformUnderscore"

/-- The option with a key. -/
def ofText? (key : String) : Option OptionKey := all.find? (·.text = key)

end OptionKey

/-- A value that is a string or `null`. -/
def stringOrNull? : Value → Option (Option String)
  | .null => some none
  | .string text => some (some text)
  | _ => none

/-- A value that is a truth value or `null`. -/
def booleanOrNull? : Value → Option (Option Bool)
  | .null => some none
  | .boolean b => some (some b)
  | _ => none

/-- The value of an entry that occurs at most once, read by `read`; absent means `null`. -/
def entry? (read : Value → Option (Option α)) (key : String) (entries : List (String × Value)) :
    Option (Option α) :=
  match entries.filter (·.1 = key) with
  | [] => some none
  | [(_, value)] => read value
  | _ => none

/-- The naming convention that a value describes. A list gives the entries of the object form in the
order of their names. -/
def Convention.ofJson? : Value → Option Convention
  | .string text => some (.selector text)
  | .object entries => do
    return .perCategory (← entry? stringOrNull? "enumValues" entries)
      (← entry? booleanOrNull? "transformUnderscore" entries)
      (← entry? stringOrNull? "typeNames" entries)
  | .list values =>
    if values.length > 3 then none
    else do
      return .perCategory (← stringOrNull? (values.getD 0 .null))
        (← booleanOrNull? (values.getD 1 .null)) (← stringOrNull? (values.getD 2 .null))
  | _ => none

/-- Reads a naming convention. Its text is read to the end before its form is judged. -/
def readConvention : Reader Convention := do
  match Convention.ofJson? (← tree (maxNesting - 1)) with
  | some convention => return convention
  | none => fail .noConvention

/-- Reads the value of one option. -/
def readOption (key : OptionKey) (options : Options) : Reader Options := do
  match key with
  | .fragmentPrefix => return { options with fragmentPrefix := ← optional string }
  | .fragmentSuffix => return { options with fragmentSuffix := ← optional string }
  | .moduleName => return { options with moduleName := ← optional string }
  | .namePrefix => return { options with namePrefix := ← optional string }
  | .nameSuffix => return { options with nameSuffix := ← optional string }
  | .namingConvention => return { options with namingConvention := ← optional readConvention }
  | .transformUnderscore => return { options with transformUnderscore := ← optional boolean }

/-- Where the reading of an object is: the options read, their keys, and whether any entry, known or
not, has been read. -/
structure ObjectProgress where
  options : Options
  seen : List OptionKey
  first : Bool

/-- Reads the colon behind a key and the value behind that. -/
def readBehindKey (key : String) (p : ObjectProgress) : Reader ObjectProgress := do
  match OptionKey.ofText? key with
  | some option =>
    if p.seen.contains option then fail (.duplicateField key)
    colon
    return ⟨← readOption option p.options, option :: p.seen, false⟩
  | none =>
    colon
    skipValue
    return { p with first := false }

/-- Reads one entry of the object form, if there is one. -/
def readEntry (p : ObjectProgress) : Reader (Option ObjectProgress) := do
  match ← nextKey p.first with
  | none => return none
  | some key => return some (← readBehindKey key p)

/-- Reads the values of options one after the other, for as long as there are any. -/
def readValues (first : Bool) (options : Options) : List OptionKey → Reader Options
  | [] => return options
  | key :: rest => do
    if ← hasItem first then readValues false (← readOption key options) rest else return options

/-- Reads the options. -/
def readOptions : Reader Options := do
  skipSpace
  match ← peek with
  | none => fail .endInValue
  | some c =>
    if c = '\x7b' then
      advance
      let progress ← iterate readEntry ⟨{}, [], true⟩
      closeObject
      return progress.options
    else if c = '[' then
      advance
      let options ← readValues true {} OptionKey.all
      closeList
      return options
    else wrongType "struct RawPluginConfig"

/-- The options in a JSON text. -/
def Options.ofText (text : String) : Except JsonError Options :=
  whole readOptions text.toList

end QueryModule.Config
