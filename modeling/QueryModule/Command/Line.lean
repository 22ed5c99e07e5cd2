import QueryModule.Command.Arguments

/-!
# Command lines

A command line names a command and gives it its arguments. The command line of the whole program may
begin with options of the program, and need not name a command; it then asks for help.
-/

namespace QueryModule.Command

/-- What is done with the module. -/
inductive Action where
  /-- It is written to a file. -/
  | generate
  /-- It is only checked that there is one. -/
  | validate
  deriving DecidableEq, Repr

/-- What a command line asks for. -/
structure Line where
  verbose : Bool
  action : Action
  arguments : Arguments
  deriving DecidableEq, Repr

/-- The words that commands are called by. -/
inductive Name where
  | help
  | action (action : Action)
  deriving DecidableEq, Repr

/-- The command that a word calls. -/
def Name.ofText? : String → Option Name
  | "help" => some .help
  | "generate" => some (.action .generate)
  | "validate" => some (.action .validate)
  | _ => none

/-- What the command for help leads to, which may be asked about one command. -/
def helpOn : List String → Halt
  | [] => .help
  | [topic] => if (Name.ofText? topic).isSome then .help else .misuse .unknownCommand
  | _ => .misuse .unknownCommand

/-- What may stand in front of a command. -/
inductive Front where
  /-- Only a request for help; a command has to follow. -/
  | bare
  /-- The options of the program. -/
  | program
  deriving DecidableEq, Repr

/-- The options that may stand in front of a command. -/
inductive Flag where
  | help
  | verbose
  | version
  deriving DecidableEq, Repr

namespace Flag

/-- The option of a long form. -/
def ofName? (front : Front) : String → Option Flag
  | "help" => some help
  | "verbose" => if front = .program then some verbose else none
  | "version" => if front = .program then some version else none
  | _ => none

/-- The option of a short form. -/
def ofLetter? (front : Front) : Char → Option Flag
  | 'h' => some help
  | 'v' => if front = .program then some verbose else none
  | 'V' => if front = .program then some version else none
  | _ => none

/-- What an option does, given whether the program is verbose already: it makes it so, once, or it
ends the command line. -/
def effect (isVerbose : Bool) : Flag → Except Halt Bool
  | help => .error .help
  | version => .error .version
  | verbose => if isVerbose then .error (.misuse .repeatedOption) else .ok true

/-- What an option does if it exists. -/
def effectIfKnown (isVerbose : Bool) : Option Flag → Except Halt Bool
  | none => .error (.misuse .unknownOption)
  | some flag => flag.effect isVerbose

end Flag

namespace Line

/-- What a command line leads to that names no command. -/
def withoutCommand : Front → Halt
  | .bare => .misuse .noCommand
  | .program => .help

/-- What a command line leads to whose options end in front of a command. Names of commands no longer
count then. -/
def behindOptions (front : Front) : List String → Halt
  | [] => withoutCommand front
  | word :: _ =>
    if (Name.ofText? word).isSome then .misuse .unknownOption else .misuse .unknownCommand

/-- Reads a command line from some word on, given whether the program is verbose already. -/
def ofWordsFrom (front : Front) (isVerbose : Bool) : List String → Except Halt Line
  | [] => .error (withoutCommand front)
  | word :: rest =>
    match Name.ofText? word with
    | some .help => .error (helpOn rest)
    | some (.action action) => (Arguments.ofWords rest).map (⟨isVerbose, action, ·⟩)
    | none =>
      match Word.ofText word with
      | .endOfOptions => .error (behindOptions front rest)
      | .plain _ => .error (.misuse .unknownCommand)
      | .long name none => do
        let isVerbose ← Flag.effectIfKnown isVerbose (Flag.ofName? front name)
        ofWordsFrom front isVerbose rest
      | .long name (some _) =>
        .error (.misuse (if (Flag.ofName? front name).isSome then .needlessValue else .unknownOption))
      | .short letter letters => do
        let isVerbose ← (letter :: letters).foldlM
          (fun isVerbose letter => Flag.effectIfKnown isVerbose (Flag.ofLetter? front letter)) isVerbose
        ofWordsFrom front isVerbose rest

/-- Reads a command line. -/
def ofWords (front : Front) (words : List String) : Except Halt Line := ofWordsFrom front false words

end Line

end QueryModule.Command
