/-!
# Lines of a text

A line ends with a line feed, or with a carriage return directly followed by a line feed; the
terminator does not belong to the line. A carriage return elsewhere is an ordinary character. A text
that ends with a terminator has no further, empty line behind it, so that the empty text has no
lines at all.
-/

namespace QueryModule.Text

/-- The lines of a text, without their terminators. -/
def lines : List Char → List (List Char)
  | [] => []
  | '\n' :: rest => [] :: lines rest
  | '\r' :: '\n' :: rest => [] :: lines rest
  | c :: rest =>
    match lines rest with
    | [] => [[c]]
    | line :: others => (c :: line) :: others

/-- The pieces of a text between the occurrences of one character, which is in none of them. There is
always at least one piece. -/
def splitAt (separator : Char) : List Char → List (List Char)
  | [] => [[]]
  | c :: rest =>
    if c = separator then [] :: splitAt separator rest
    else
      match splitAt separator rest with
      | [] => [[c]]
      | piece :: others => (c :: piece) :: others

/-- The text with every occurrence of `old` replaced by `new`, occurrences being looked for from left
to right and after the end of the one before. `old` is not empty. -/
def replaceAll (old new : List Char) (text : List Char) : List Char :=
  match text with
  | [] => []
  | c :: rest =>
    if old.isPrefixOf (c :: rest) then new ++ replaceAll old new (rest.drop (old.length - 1))
    else c :: replaceAll old new rest
termination_by text.length
decreasing_by
  · simp only [List.length_drop, List.length_cons]; omega
  · simp only [List.length_cons]; omega

end QueryModule.Text
