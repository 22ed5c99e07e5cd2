import QueryModule.Config.Options
import QueryModule.Source.Reading

/-!
# Reading a configuration

The options in a text and in a file, why there are none, and what else there is to say of the reason.
Some errors have the text of their reason in their own words already; where a whole chain of errors is
shown, it comes again as a link of its own.
-/

namespace QueryModule.Config

open QueryModule.Json (JsonError)

/-- Why there are no options. -/
inductive OptionsError where
  | unreadable (error : ReadError)
  | invalidJson (error : JsonError)
  deriving DecidableEq, Repr

/-- What lies behind the error. -/
def OptionsError.reason : OptionsError → String
  | .unreadable e => e.message
  | .invalidJson e => e.message

/-- The error in words. -/
def OptionsError.message : OptionsError → String
  | .unreadable e => "Failed to read plugin config: " ++ e.message
  | .invalidJson e => "Invalid plugin config JSON: " ++ e.message

/-- The options in a text. -/
def parseOptions (text : String) : Except OptionsError Options :=
  (Options.ofText text).mapError .invalidJson

/-- The options in the file that a path leads to. -/
def Options.load (t : FileTree) (path : String) : Logged OptionsError Options := do
  let text ← (t.readText path).mapError .unreadable
  Logged.ofExcept (parseOptions text)

end QueryModule.Config
