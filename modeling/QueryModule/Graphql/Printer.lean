import QueryModule.Decimal.Shortest
import QueryModule.Graphql.Document
import QueryModule.Graphql.StringLiteral

/-!
# Writing executable documents

The one form in which every document is written: two spaces of indentation per level, one selection
per line, a blank line between definitions. Texts are written as quoted strings, and as block strings
when they have several lines and no character that needs an escape.
-/

namespace QueryModule.Graphql

open QueryModule.Text

/-- So many spaces. -/
def spaces (n : Nat) : String := String.ofList (List.replicate n ' ')

/-- How much deeper the inner lines of a construct are indented. -/
def indentStep : Nat := 2

/-- Can the character stand for itself in a quoted string? -/
def isPlain (c : Char) : Bool := 0x20 ≤ c.toNat && c.toNat ≤ 0xFFFF

/-- One character of a quoted string. Characters that cannot stand for themselves are given by their
number, in decimal and with at least four digits. -/
def quotedStringChar (c : Char) : List Char :=
  if c = '\r' then ['\\', 'r']
  else if c = '\n' then ['\\', 'n']
  else if c = '\t' then ['\\', 't']
  else if c = '"' then ['\\', '"']
  else if c = '\\' then ['\\', '\\']
  else if isPlain c then [c]
  else
    let digits := Nat.toDigits 10 c.toNat
    ['\\', 'u'] ++ List.replicate (4 - digits.length) '0' ++ digits

/-- A text as a quoted string. -/
def quotedString (text : String) : String :=
  "\"" ++ String.ofList (text.toList.flatMap quotedStringChar) ++ "\""

/-- One line of a block string with its line feed. Lines of white space are written empty. -/
def blockStringLine (indent : Nat) (line : List Char) : String :=
  if isBlankLine line then "\n"
  else
    spaces (indent + indentStep)
      ++ String.ofList (replaceAll tripleMark ('\\' :: tripleMark) line) ++ "\n"

/-- A text as a block string on a line with some indentation. -/
def blockString (indent : Nat) (text : String) : String :=
  "\"\"\"\n" ++ String.join ((lines text.toList).map (blockStringLine indent))
    ++ spaces indent ++ "\"\"\""

/-- Is the text written as a block string? -/
def needsBlock (text : String) : Bool :=
  text.toList.contains '\n' && text.toList.all fun c => c == '\r' || c == '\n' || c == '\t' || isPlain c

/-- A text as a string literal on a line with some indentation. -/
def stringLiteral (indent : Nat) (text : String) : String :=
  if needsBlock text then blockString indent text else quotedString text

mutual

/-- A value on a line with some indentation. -/
def Value.print (indent : Nat) : Value → String
  | .variableRef name => "$" ++ name
  | .int n => toString n
  | .float x => x.text
  | .string text => stringLiteral indent text
  | .boolean true => "true"
  | .boolean false => "false"
  | .null => "null"
  | .enumerator name => name
  | .list items => "[" ++ ", ".intercalate (printItems indent items) ++ "]"
  | .object fields => "\x7b" ++ ", ".intercalate (printFields indent fields) ++ "\x7d"
termination_by structural v => v

/-- The items of a list. -/
def printItems (indent : Nat) : List Value → List String
  | [] => []
  | v :: rest => v.print indent :: printItems indent rest
termination_by structural vs => vs

/-- The fields of an object, or arguments. -/
def printFields (indent : Nat) : List (String × Value) → List String
  | [] => []
  | (name, v) :: rest => (name ++ ": " ++ v.print indent) :: printFields indent rest
termination_by structural vs => vs

end

/-- A type. -/
def TypeExpr.print : TypeExpr → String
  | .named name => name
  | .list item => "[" ++ item.print ++ "]"
  | .nonNull type => type.print ++ "!"

/-- Arguments in parentheses, or nothing when there are none. -/
def printArguments (indent : Nat) (arguments : Arguments) : String :=
  if arguments.isEmpty then "" else "(" ++ ", ".intercalate (printFields indent arguments) ++ ")"

/-- A directive with a space in front of it. -/
def Directive.print (indent : Nat) (d : Directive) : String :=
  " @" ++ d.name ++ printArguments indent d.arguments

/-- Directives, each with a space in front of it. -/
def printDirectives (indent : Nat) (directives : List Directive) : String :=
  String.join (directives.map (·.print indent))

/-- Inner lines in braces whose closing brace is on a line with some indentation. -/
def braced (indent : Nat) (inner : String) : String :=
  "\x7b\n" ++ inner ++ spaces indent ++ "\x7d\n"

mutual

/-- The lines of a selection. -/
def Selection.print (indent : Nat) : Selection → String
  | .field key name arguments directives selections =>
    spaces indent ++ (match key with
      | some key => key ++ ": "
      | none => "") ++ name ++ printArguments indent arguments ++ printDirectives indent directives
      ++ (if selections.isEmpty then "\n" else " " ++ braced indent (printSelections (indent + indentStep) selections))
  | .spread _ name directives =>
    spaces indent ++ "..." ++ name ++ printDirectives indent directives ++ "\n"
  | .inline onType directives selections =>
    spaces indent ++ "..." ++ (match onType with
      | some type => " on " ++ type
      | none => "") ++ printDirectives indent directives ++ " "
      ++ braced indent (printSelections (indent + indentStep) selections)
termination_by structural s => s

/-- Selections, each on lines of its own. -/
def printSelections (indent : Nat) : List Selection → String
  | [] => ""
  | s :: rest => s.print indent ++ printSelections indent rest
termination_by structural s => s

end

/-- The selection set of a definition. -/
def printBody (selections : List Selection) : String :=
  braced 0 (printSelections indentStep selections)

/-- A variable of an operation. -/
def VariableDefinition.print (v : VariableDefinition) : String :=
  "$" ++ v.name ++ ": " ++ v.type.print ++ (match v.defaultValue with
    | some value => " = " ++ value.print 0
    | none => "")

/-- The variables of an operation in parentheses, or nothing when there are none. -/
def printVariables (separator : String) (parameters : List VariableDefinition) : String :=
  if parameters.isEmpty then "" else "(" ++ separator.intercalate (parameters.map (·.print)) ++ ")"

/-- The head of an operation. The variables of a subscription follow each other without a separator,
and those of a subscription without a name are not written. -/
def printHead (kind : OperationKind) (name : Option String)
    (parameters : List VariableDefinition) : String :=
  kind.keyword ++ (match name with
    | some name => " " ++ name
    | none => "")
    ++ (match kind, name with
      | .subscription, some _ => printVariables "" parameters
      | .subscription, none => ""
      | _, _ => printVariables ", " parameters)

/-- An operation. -/
def Operation.print : Operation → String
  | .shorthand _ selections => printBody selections
  | .explicit kind _ name parameters directives selections =>
    printHead kind name parameters ++ printDirectives 0 directives ++ " "
      ++ printBody selections

/-- A fragment. -/
def FragmentDefinition.print (f : FragmentDefinition) : String :=
  "fragment " ++ f.name ++ " on " ++ f.onType ++ printDirectives 0 f.directives ++ " "
    ++ printBody f.selections

/-- A definition; the text ends with a line feed. -/
def Definition.print : Definition → String
  | .operation o => o.print
  | .fragment f => f.print

/-- A document: its definitions with a blank line between each two. -/
def printDocument (definitions : List Definition) : String :=
  "\n".intercalate (definitions.map (·.print))

end QueryModule.Graphql
