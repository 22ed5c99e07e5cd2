import QueryModule.Proofs.Graphql.Numbers
import QueryModule.Proofs.Naming.Words

/-!
# Words behind different separators

Five casings put the words of a name in lower case and a separator of their own between each two of them.
Three of these take the snake form and exchange its underscores afterwards, which is the same as to join
the words with the other separator from the start, as long as no word has an underscore in it
(`restyleChars_eq_join`). No word does: its letters and digits are no separators, and no change of case
leads to one (`separator_not_mem`). So the words can be told from the text again, and they are the same
whatever stands between them:

> `restyle_same_words`
-/

namespace QueryModule.Naming

open QueryModule.Graphql (forall_mem_of_all)
open QueryModule.Unicode (IsAscii isAlphanumeric Unreached lowerShifts lowerExpansions upperShifts
  upperExpansions)

/-- What a casing puts between words in lower case, if this is all that it does. -/
def Casing.lowerSeparator? : Casing → Option Char
  | .dot => some '.'
  | .no => some ' '
  | .path => some '/'
  | .param => some '-'
  | .snake => some '_'
  | _ => none

/-- What stands between words in these casings. -/
def wordSeparators : List Char := ['.', ' ', '/', '-', '_']

/-- The words of a text in lower case. A text without words has the empty one. -/
def lowerWords (text : List Char) : List (List Char) :=
  if words text = [] then [[]] else (words text).map lowerWord

/-- What a casing separates words by is one of them. -/
theorem mem_wordSeparators {t : Casing} {c : Char} (h : t.lowerSeparator? = some c) :
    c ∈ wordSeparators := by
  cases t <;> simp only [Casing.lowerSeparator?, Option.some.injEq, reduceCtorEq] at h <;>
    simp [wordSeparators, ← h]

/-! ## No separator in a word -/

set_option maxRecDepth 4000 in
theorem unreached_wordSeparators :
    ∀ c ∈ wordSeparators, Unreached c lowerShifts lowerExpansions ∧
      Unreached c upperShifts upperExpansions :=
  forall_mem_of_all (by decide)

/-- A change of case brings about none of the separators. -/
theorem caseClosed_ne_separator {c : Char} (h : c ∈ wordSeparators) : CaseClosed (· ≠ c) := by
  obtain ⟨hlower, hupper⟩ := unreached_wordSeparators c h
  have hplain : ∀ c ∈ wordSeparators, c ≠ '\x00' ∧ c ≠ Unicode.finalSigma :=
    forall_mem_of_all (by decide)
  exact caseClosed_ne (hplain c h).1 (hplain c h).2 hlower hupper

/-- A separator is neither a letter nor a digit. -/
theorem isAlphanumeric_separator {c : Char} (h : c ∈ wordSeparators) : isAlphanumeric c = false := by
  have hascii : ∀ c ∈ wordSeparators, c.toNat < 128 ∧ c.isAlphanum = false :=
    forall_mem_of_all (by decide)
  exact (IsAscii.isAlphanumeric_eq (hascii c h).1).trans (hascii c h).2

/-- So none is in a word in lower case. -/
theorem separator_not_mem {text word : List Char} (hword : word ∈ (words text).map lowerWord) {c : Char}
    (hc : c ∈ wordSeparators) : c ∉ word := by
  obtain ⟨w, hw, rfl⟩ := List.mem_map.mp hword
  have hne : ∀ x ∈ w, x ≠ c := by
    intro x hx heq
    have halnum := isAlphanumeric_of_mem_words hw hx
    rw [heq, isAlphanumeric_separator hc] at halnum
    exact absurd halnum (by decide)
  exact fun hmem => forall_mem_lowerWord (caseClosed_ne_separator hc) hne c hmem rfl

/-! ## Words with separators between them -/

/-- Another separator takes the place of the one that words are joined with, and of nothing else. -/
theorem map_join {ws : List (List Char)} {c : Char} (hws : ∀ w ∈ ws, c ∉ w) (d : Char) :
    (Casing.join [c] ws).map (fun x => if x = c then d else x) = Casing.join [d] ws := by
  have hkeep : ∀ w ∈ ws, w.map (fun x => if x = c then d else x) = w := by
    intro w hw
    calc w.map (fun x => if x = c then d else x)
        = w.map id := List.map_congr_left fun x hx => if_neg (ne_of_mem_of_not_mem hx (hws w hw))
      _ = w := List.map_id w
  unfold Casing.join
  rw [map_intercalate, List.map_congr_left hkeep, List.map_id', List.map_singleton, if_pos rfl]

/-- Snake case joins words in lower case. -/
theorem snakeWith_eq_join (separator : Char) (text : List Char) :
    Casing.snakeWith separator text = Casing.join [separator] ((words text).map lowerWord) :=
  map_join (fun _ hw => separator_not_mem hw (by decide)) separator

/-- All five casings join the same words. -/
theorem restyleChars_eq_join {t : Casing} {c : Char} (h : t.lowerSeparator? = some c)
    (text : List Char) : t.restyleChars text = Casing.join [c] ((words text).map lowerWord) := by
  cases t with
  | dot | no | path =>
    rw [← Option.some.inj h]
    exact snakeWith_eq_join _ text
  | param | snake =>
    rw [← Option.some.inj h]
    rfl
  | _ => exact absurd h (by simp [Casing.lowerSeparator?])

/-- The words can be told from the text that they make up. -/
theorem splitAt_restyleChars {t : Casing} {c : Char} (h : t.lowerSeparator? = some c)
    (text : List Char) : Text.splitAt c (t.restyleChars text) = lowerWords text := by
  rw [restyleChars_eq_join h, lowerWords]
  split
  · next hnone =>
    rw [hnone]
    rfl
  · next hsome =>
    rw [Casing.join, Text.splitAt_eq_splitOn]
    refine List.splitOn_intercalate c (fun w hw => ?_) (by simpa using hsome)
    exact separator_not_mem hw (mem_wordSeparators h)

/-- The words that all five casings join have none of the separators in them. -/
theorem separator_not_mem_lowerWords {text word : List Char} (hword : word ∈ lowerWords text) {c : Char}
    (hc : c ∈ wordSeparators) : c ∉ word := by
  unfold lowerWords at hword
  split at hword
  · rw [List.mem_singleton.mp hword]
    exact List.not_mem_nil
  · exact separator_not_mem hword hc

/-- **Words are the same behind every separator.** Cut at its separator, a name in any of the five casings
gives the words of the name in lower case, and no separator occurs in any of them; so one casing becomes
another one when separators are exchanged. Sentence case differs from words with spaces in its first
character only, which is put in upper case. -/
theorem restyle_same_words (name : String) :
    (∀ (t : Casing) (c : Char), t.lowerSeparator? = some c →
      Text.splitAt c (t.restyle name).toList = lowerWords name.toList) ∧
    (∀ word ∈ lowerWords name.toList, ∀ c ∈ wordSeparators, c ∉ word) ∧
    (∀ (t : Casing) (c : Char) (u : Casing) (d : Char), t.lowerSeparator? = some c →
      u.lowerSeparator? = some d →
      (t.restyle name).toList.map (fun x => if x = c then d else x) = (u.restyle name).toList) ∧
    (Casing.sentence.restyle name).toList =
      Casing.changeFirst Unicode.upper (Casing.no.restyle name).toList := by
  have hchars : ∀ t : Casing, (t.restyle name).toList = t.restyleChars name.toList := fun _ =>
    String.toList_ofList
  simp only [hchars]
  refine ⟨fun t c h => splitAt_restyleChars h _, fun w hw c hc => separator_not_mem_lowerWords hw hc,
    fun t c u d ht hu => ?_, rfl⟩
  rw [restyleChars_eq_join ht, restyleChars_eq_join hu]
  exact map_join (fun w hw => separator_not_mem hw (mem_wordSeparators ht)) d

end QueryModule.Naming
