import QueryModule.Command.Run
import QueryModule.Command.Verbosity

/-!
# The program

The program as a function of the tree of files that it works on, the words of its command line and
the level that is named in its environment.
-/

namespace QueryModule.Command

/-- What a failure of a command is called. -/
def Action.failure : Action → String
  | .generate => "Generation failed"
  | .validate => "GraphQL validation errors"

/-- What a finished program shows. -/
structure Transcript where
  succeeds : Bool
  /-- The text for the standard output. -/
  output : String
  /-- The text behind the log in the error output. -/
  errors : String
  log : List LogEntry
  deriving DecidableEq, Repr

/-- What is shown of the result of a command. -/
def Transcript.ofRun (action : Action) (v : Verbosity) (run : Logged RunError String) : Transcript :=
  let log := (v.entries ++ run.log).filter v.shows
  match run.result with
  | .ok summary => ⟨true, s!"✅ {summary}\n", "", log⟩
  | .error e => ⟨false, "", s!"❌ {action.failure}: {e.message}\n", log⟩

/-- The name of the program and its version. -/
def versionText : String := "graphql-elixir 0.1.0\n"

/-- Runs the program. A command line that leads to no command changes nothing. -/
def program (t : FileTree) (words : List String) (environment : Option String) :
    FileTree × Except Halt Transcript :=
  match Line.ofWords .program words with
  | .error halt => (t, .error halt)
  | .ok line =>
    let (t, result) := run t line.action line.arguments
    (t, .ok (.ofRun line.action (.choose line.verbose environment) result))

end QueryModule.Command
