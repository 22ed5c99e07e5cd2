import QueryModule.Naming.Words
import QueryModule.Text.Lines

/-!
# Casings

The forms that a name can be given. Most of them cut the name into words, change the case of
each word and join the words with a separator; the others change the case of single characters and
keep everything else.
-/

namespace QueryModule.Naming

open QueryModule.Unicode

/-- The casings. -/
inductive Casing where
  /-- `getUserQuery` -/
  | camel
  /-- `Get User Query` -/
  | capital
  /-- `GET_USER_QUERY` -/
  | constant
  /-- `get.user.query` -/
  | dot
  /-- `Get-User-Query` -/
  | header
  /-- `get user query` -/
  | no
  /-- `get-user-query` -/
  | param
  /-- `GetUserQuery` -/
  | pascal
  /-- `get/user/query` -/
  | path
  /-- `Get user query` -/
  | sentence
  /-- `get_user_query` -/
  | snake
  /-- `Get User Query` -/
  | title
  | lower
  | lowerFirst
  | upper
  | upperFirst
  deriving DecidableEq, Repr

namespace Casing

/-- The names that casings are selected by. Where a casing has two, the first one is canonical. -/
def names : List (String × Casing) :=
  [("camelCase", camel), ("capitalCase", capital), ("constantCase", constant), ("dotCase", dot),
    ("headerCase", header), ("noCase", no), ("paramCase", param), ("pascalCase", pascal),
    ("pathCase", path), ("sentenceCase", sentence), ("snakeCase", snake), ("titleCase", title),
    ("lowerCase", lower), ("localeLowerCase", lower), ("lowerCaseFirst", lowerFirst),
    ("upperCase", upper), ("localeUpperCase", upper), ("upperCaseFirst", upperFirst)]

/-- The casing that a name selects. -/
def ofName? (name : String) : Option Casing := names.lookup name

/-- The canonical name of a casing. -/
def name (t : Casing) : String :=
  match names.find? (·.2 = t) with
  | some (name, _) => name
  | none => "unknown"

/-- Words with a separator between each two. -/
def join (separator : List Char) (words : List (List Char)) : List Char :=
  separator.intercalate words

/-- The words of a text in lower case, joined with underscores. -/
def snakeText (text : List Char) : List Char := join ['_'] ((words text).map lowerWord)

/-- The words of a text in lower case with another separator: every underscore of the snake form
becomes the separator. -/
def snakeWith (separator : Char) (text : List Char) : List Char :=
  (snakeText text).map fun c => if c = '_' then separator else c

/-- The first word in lower case, the others capitalized. -/
def camelWords : List (List Char) → List (List Char)
  | [] => []
  | word :: rest => lowerWord word :: rest.map capitalized

/-- A text whose first character is changed by `change`. -/
def changeFirst (change : Char → List Char) : List Char → List Char
  | [] => []
  | c :: rest => change c ++ rest

/-- The characters of a name, restyled. -/
def restyleChars : Casing → List Char → List Char
  | camel, text => join [] (camelWords (words text))
  | capital, text => join [' '] ((words text).map capitalized)
  | constant, text => join ['_'] ((words text).map upperWord)
  | dot, text => snakeWith '.' text
  | header, text => join ['-'] ((words text).map capitalized)
  | no, text => snakeWith ' ' text
  | param, text => join ['-'] ((words text).map lowerWord)
  | pascal, text => join [] ((words text).map capitalized)
  | path, text => snakeWith '/' text
  | sentence, text => changeFirst Unicode.upper (snakeWith ' ' text)
  | snake, text => snakeText text
  | title, text => join [' '] ((words text).map capitalized)
  | lower, text => lowerText text
  | lowerFirst, text => changeFirst Unicode.lower text
  | upper, text => upperText text
  | upperFirst, text => changeFirst Unicode.upper text

/-- The name, restyled. -/
def restyle (t : Casing) (name : String) : String := String.ofList (t.restyleChars name.toList)

end Casing

end QueryModule.Naming
