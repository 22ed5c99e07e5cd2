import QueryModule.Unicode.Alphanumeric
import QueryModule.Unicode.CaseMapping

/-!
# Words of a name

A name is cut into words: at every character that is neither a letter nor a digit, and inside of a run
of letters and digits where the case changes. A word ends after a lower-case stretch in front of a
capital, and before the last capital of an upper-case stretch that a small letter follows. Digits
belong to the stretch they stand in.
-/

namespace QueryModule.Naming

open QueryModule.Unicode

/-- The case of the stretch that a scan is in: that of its last letter, or none yet at the start of a
word. -/
inductive Stretch where
  | none
  | lower
  | upper
  deriving DecidableEq, Repr

/-- The stretch after `c`, unless a word ends there. -/
def Stretch.next (s : Stretch) (c : Char) : Stretch :=
  if isLower c then .lower else if isUpper c then .upper else s

/-- Words, the first of which gets one more character at its front. -/
def growFirst (c : Char) : List (List Char) → List (List Char)
  | [] => [[c]]
  | word :: rest => (c :: word) :: rest

/-- The words of the rest of a run, where the first one continues the word that the scan is in. -/
def wordsFrom (s : Stretch) : List Char → List (List Char)
  | [] => []
  | [c] => [[c]]
  | c :: d :: rest =>
    if s.next c = .lower && isUpper d then [c] :: wordsFrom .none (d :: rest)
    else if s = .upper && isUpper c && isLower d then
      [] :: growFirst c (wordsFrom .none (d :: rest))
    else growFirst c (wordsFrom (s.next c) (d :: rest))

/-- The runs of letters and digits in a text; the pieces between other characters, some of them
empty. -/
def runs : List Char → List (List Char)
  | [] => [[]]
  | c :: rest => if isAlphanumeric c then growFirst c (runs rest) else [] :: runs rest

/-- The words of a text. -/
def words (text : List Char) : List (List Char) := (runs text).flatMap (wordsFrom .none)

/-- A word in lower case. A capital sigma at the end of a word takes its final form, without regard to
what comes before it. -/
def lowerWord : List Char → List Char
  | [] => []
  | [c] => if c = capitalSigma then [finalSigma] else lower c
  | c :: rest => lower c ++ lowerWord rest

/-- A word in upper case. -/
def upperWord (word : List Char) : List Char := word.flatMap upper

/-- A word with a capital at its front and the rest in lower case. -/
def capitalized : List Char → List Char
  | [] => []
  | c :: rest => upper c ++ lowerWord rest

end QueryModule.Naming
