import QueryModule.Graphql.Lexer
import QueryModule.Graphql.Printer

/-!
# Quoted strings that have been written

A quoted string is written one character after the other, and every piece is a complete escape or a
character that means itself. So the lexer finds the closing mark where it has been written, whatever
the text is (`quotedLength?_content`). Undoing the escapes gives the text back as long as no character
is written by a number that its decimal digits do not denote when they are read as hexadecimal ones.

> `unescape_content`: the content of a quoted string denotes the text.
-/

namespace QueryModule.Graphql

/-- The character is read back from a quoted string: it means itself, has an escape of its own, or has
a number of one digit. -/
def SurvivesQuotes (c : Char) : Prop := isPlain c = true ∨ c = '\r' ∨ c.toNat ≤ 10

/-- What stands between the marks of a quoted string. -/
def quotedContent (text : List Char) : List Char := text.flatMap quotedStringChar

theorem quotedContent_cons (c : Char) (text : List Char) :
    quotedContent (c :: text) = quotedStringChar c ++ quotedContent text := List.flatMap_cons

/-- A quoted string is its content between the marks. -/
theorem toList_quotedString (text : String) :
    (quotedString text).toList = '"' :: quotedContent text.toList ++ ['"'] := by
  unfold quotedString quotedContent
  rw [String.toList_append, String.toList_append]
  exact congrArg (fun content => '"' :: content ++ ['"']) String.toList_ofList

/-- The ways in which a character is written. -/
theorem quotedStringChar_cases (c : Char) :
    (∃ e, quotedStringChar c = ['\\', e] ∧ e ≠ '\n' ∧ e ≠ 'u' ∧ escapedChar? e = some c) ∨
      (quotedStringChar c = [c] ∧ isPlain c = true ∧ c ≠ '"' ∧ c ≠ '\n' ∧ c ≠ '\\') ∨
      (quotedStringChar c = '\\' :: 'u' :: (List.replicate (4 - (Nat.toDigits 10 c.toNat).length) '0'
        ++ Nat.toDigits 10 c.toNat) ∧ isPlain c = false ∧ c ≠ '\r' ∧ c ≠ '\n' ∧ c ≠ '\t') := by
  unfold quotedStringChar
  by_cases hr : c = '\r'
  · exact .inl ⟨'r', by rw [if_pos hr], by decide, by decide, by rw [hr]; decide⟩
  by_cases hn : c = '\n'
  · exact .inl ⟨'n', by rw [if_neg hr, if_pos hn], by decide, by decide, by rw [hn]; decide⟩
  by_cases ht : c = '\t'
  · exact .inl ⟨'t', by rw [if_neg hr, if_neg hn, if_pos ht], by decide, by decide, by rw [ht]; decide⟩
  by_cases hq : c = '"'
  · exact .inl ⟨'"', by rw [if_neg hr, if_neg hn, if_neg ht, if_pos hq], by decide, by decide,
      by rw [hq]; decide⟩
  by_cases hb : c = '\\'
  · exact .inl ⟨'\\', by rw [if_neg hr, if_neg hn, if_neg ht, if_neg hq, if_pos hb], by decide, by decide,
      by rw [hb]; decide⟩
  rw [if_neg hr, if_neg hn, if_neg ht, if_neg hq, if_neg hb]
  cases hp : isPlain c with
  | true => exact .inr (.inl ⟨rfl, rfl, hq, hn, hb⟩)
  | false => exact .inr (.inr ⟨rfl, rfl, hr, hn, ht⟩)

/-! ## The closing mark -/

/-- The lexer goes over characters that play no part in a string. -/
theorem quotedLength?_plain {text : List Char} (h : ∀ c ∈ text, c ≠ '"' ∧ c ≠ '\n' ∧ c ≠ '\\')
    (rest : List Char) :
    quotedLength? false (text ++ rest) = (quotedLength? false rest).map (· + text.length) := by
  induction text with
  | nil => simp
  | cons c text ih =>
    obtain ⟨hq, hn, hb⟩ := h c (List.mem_cons_self ..)
    have hescaped : (!false && c == '\\') = false := by simpa using hb
    rw [List.cons_append, quotedLength?, if_neg (by simp [hq]), if_neg hn, hescaped,
      ih fun x hx => h x (List.mem_cons_of_mem _ hx), Option.map_map]
    rfl

/-- It goes over an escape without looking at its character. -/
theorem quotedLength?_escape {e : Char} (h : e ≠ '\n') (rest : List Char) :
    quotedLength? false ('\\' :: e :: rest) = (quotedLength? false rest).map (· + 2) := by
  have hescaped : (!false && '\\' == '\\') = true := rfl
  rw [quotedLength?, if_neg (by decide), if_neg (by decide), hescaped, quotedLength?,
    if_neg (by simp), if_neg h, Option.map_map]
  rfl

/-- So it goes over each character as it is written. -/
theorem quotedLength?_quotedStringChar (c : Char) (rest : List Char) :
    quotedLength? false (quotedStringChar c ++ rest)
      = (quotedLength? false rest).map (· + (quotedStringChar c).length) := by
  rcases quotedStringChar_cases c with ⟨e, heq, hn, -, -⟩ | ⟨heq, -, hq, hn, hb⟩ | ⟨heq, -⟩
  · rw [heq]
    exact quotedLength?_escape hn rest
  · rw [heq]
    refine quotedLength?_plain ?_ rest
    simpa using ⟨hq, hn, hb⟩
  · have hdigits : ∀ x ∈ List.replicate (4 - (Nat.toDigits 10 c.toNat).length) '0'
        ++ Nat.toDigits 10 c.toNat, x ≠ '"' ∧ x ≠ '\n' ∧ x ≠ '\\' := by
      intro x hx
      have hx : x.isDigit = true := by
        rcases List.mem_append.mp hx with hx | hx
        · rw [List.eq_of_mem_replicate hx]
          decide
        · exact Nat.isDigit_of_mem_toDigits (by decide) (by decide) hx
      refine ⟨?_, ?_, ?_⟩ <;> (rintro rfl; exact absurd hx (by decide))
    rw [heq, List.cons_append, List.cons_append, quotedLength?_escape (by decide),
      quotedLength?_plain hdigits, Option.map_map]
    rfl

/-- The lexer finds the mark that closes the string. -/
theorem quotedLength?_content (text rest : List Char) :
    quotedLength? false (quotedContent text ++ '"' :: rest) = some ((quotedContent text).length + 1) := by
  induction text with
  | nil => rfl
  | cons c text ih =>
    rw [quotedContent_cons, List.append_assoc, quotedLength?_quotedStringChar, ih, Option.map_some,
      List.length_append]
    congr 1
    omega

/-- No quoted string looks like the start of a block string. -/
theorem not_isPrefix_content (text : List Char) {rest : List Char} (hrest : ¬ ['"'] <+: rest) :
    ¬ ['"', '"'] <+: quotedContent text ++ '"' :: rest := by
  cases text with
  | nil => simpa [quotedContent] using hrest
  | cons c text =>
    rw [quotedContent_cons]
    rcases quotedStringChar_cases c with ⟨e, heq, -⟩ | ⟨heq, -, hq, -⟩ | ⟨heq, -⟩
    · rw [heq]
      simp
    · rw [heq]
      simp [hq.symm]
    · rw [heq]
      simp

/-! ## The text -/

/-- A character that is no backslash denotes itself. -/
theorem unescape_plain {c : Char} (h : c ≠ '\\') (rest : List Char) :
    unescape (c :: rest) = (unescape rest).map (c :: ·) := by
  rw [unescape.eq_5]
  · exact fun _ _ _ _ _ hc => absurd hc h
  · exact fun _ hc => absurd hc h
  · exact fun _ _ hc => absurd hc h

/-- A short escape denotes its character. -/
theorem unescape_escape {e c : Char} (he : e ≠ 'u') (h : escapedChar? e = some c) (rest : List Char) :
    unescape ('\\' :: e :: rest) = (unescape rest).map (c :: ·) := by
  rw [unescape.eq_4, h]
  · exact fun _ _ _ _ _ hu => absurd hu he
  · exact he

/-- A number of one digit is the same in decimal and in hexadecimal notation. -/
theorem unescape_numbered {c : Char} (h : c.toNat < 10) (rest : List Char) :
    unescape ('\\' :: 'u' :: (List.replicate (4 - (Nat.toDigits 10 c.toNat).length) '0'
      ++ Nat.toDigits 10 c.toNat) ++ rest) = (unescape rest).map (c :: ·) := by
  have hnumber : ∀ n < 10, numberedChar? ['0', '0', '0', Nat.digitChar n] = some (Char.ofNat n) := by
    decide
  rw [Nat.toDigits_of_lt_base h]
  show unescape ('\\' :: 'u' :: '0' :: '0' :: '0' :: Nat.digitChar c.toNat :: rest) = _
  rw [unescape.eq_2, hnumber c.toNat h, Char.ofNat_toNat]

/-- What a character that survives is written as denotes the character. -/
theorem unescape_quotedStringChar {c : Char} (h : SurvivesQuotes c) (rest : List Char) :
    unescape (quotedStringChar c ++ rest) = (unescape rest).map (c :: ·) := by
  rcases quotedStringChar_cases c with ⟨e, heq, -, hu, he⟩ | ⟨heq, -, -, -, hb⟩ | ⟨heq, hp, hr, hn, -⟩
  · rw [heq]
    exact unescape_escape hu he rest
  · rw [heq]
    exact unescape_plain hb rest
  · rw [heq]
    have hle : c.toNat ≤ 10 := (h.resolve_left (by simp [hp])).resolve_left hr
    have hne : c.toNat ≠ '\n'.toNat := fun h => hn (Char.toNat_inj.mp h)
    have hfeed : '\n'.toNat = 10 := rfl
    exact unescape_numbered (by omega) rest

/-- The content of a quoted string denotes the text. -/
theorem unescape_content {text : List Char} (h : ∀ c ∈ text, SurvivesQuotes c) :
    unescape (quotedContent text) = .ok text := by
  induction text with
  | nil => rfl
  | cons c text ih =>
    rw [quotedContent_cons, unescape_quotedStringChar (h c (List.mem_cons_self ..)),
      ih fun x hx => h x (List.mem_cons_of_mem _ hx)]
    rfl

end QueryModule.Graphql
