import QueryModule.Unicode.Hidden

/-!
# Quoted texts

Messages show a text, a character or a path between quotation marks, in a form that a reader can tell
apart from every other: the quotation mark, the backslash and the usual controls get a backslash
escape, and a character without a shape of its own is named by its number in hexadecimal.
-/

namespace QueryModule.Text

/-- How one character is written between quotation marks, where the characters of `marks` have to be
escaped. -/
def escapeChar (marks : List Char) (c : Char) : List Char :=
  if c.toNat = 0 then ['\\', '0']
  else if c = '\t' then ['\\', 't']
  else if c = '\r' then ['\\', 'r']
  else if c = '\n' then ['\\', 'n']
  else if c = '\\' then ['\\', '\\']
  else if marks.contains c then ['\\', c]
  else if Unicode.isHidden c then
    ['\\', 'u', '\x7b'] ++ Nat.toDigits 16 c.toNat ++ ['\x7d']
  else [c]

/-- The double quotation mark. -/
def doubleMark : Char := '"'

/-- The single quotation mark. -/
def singleMark : Char := '\''

/-- A character between single quotation marks. -/
def quotedChar (c : Char) : String :=
  String.ofList (singleMark :: escapeChar [singleMark] c ++ [singleMark])

/-- A text between double quotation marks. -/
def quoted (text : String) : String :=
  String.ofList (doubleMark :: text.toList.flatMap (escapeChar [doubleMark]) ++ [doubleMark])

/-- A path between double quotation marks. In a path both kinds of mark are escaped. -/
def quotedPath (path : String) : String :=
  String.ofList
    (doubleMark :: path.toList.flatMap (escapeChar [doubleMark, singleMark]) ++ [doubleMark])

end QueryModule.Text
