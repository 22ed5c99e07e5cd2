import QueryModule.Config.Settings
import QueryModule.Proofs.Elixir.Reading
import QueryModule.Proofs.Graphql.Lexing
import QueryModule.Proofs.Naming.Words

/-!
# Names that a function can have

A constant is written as a function, and so its name has to be one that a function can have
(`IsFunctionName`). The snake form of a name consists of characters that are fit for this. But where
underscores are restyled, too, those at the front of the name are lost, and then a digit can come to
stand there, or nothing is left at all.

> `isFunctionName_snakeText_iff`: the snake form of a name can be that of a function just when the first
> character of the name that is not an underscore is a letter.
-/

namespace QueryModule.Naming

open QueryModule.Config (Settings)
open QueryModule.Elixir (constant functionIndent splitOn_constant)
open QueryModule.Graphql (IsName isNameStart isNameChar isNameChar_of_isNameStart)
open QueryModule.Unicode (IsAscii isAlphanumeric isAscii_of_isAlphanum isUpper_iff_toNat
  isLower_iff_toNat)

/-! ## Characters of names -/

/-- A small letter, a digit or an underscore. -/
def isSmallNameChar (c : Char) : Bool := c == '_' || c.isLower || c.isDigit

theorem isDigit_eq_false_of_isLower {c : Char} (h : c.isLower = true) : c.isDigit = false := by
  have hcode := isLower_iff_toNat.mp h
  rw [← Bool.not_eq_true, Char.isDigit_iff_toNat]
  show ¬ (0x30 ≤ c.toNat ∧ c.toNat ≤ 0x39)
  omega

theorem isUpper_eq_false_of_isDigit {c : Char} (h : c.isDigit = true) : c.isUpper = false := by
  have hcode : 0x30 ≤ c.toNat ∧ c.toNat ≤ 0x39 := Char.isDigit_iff_toNat.mp h
  rw [← Bool.not_eq_true, isUpper_iff_toNat]
  omega

/-- The characters of names: underscores, letters and digits. -/
theorem isNameChar_cases {c : Char} (h : isNameChar c = true) :
    c = '_' ∨ c.isAlpha = true ∨ c.isDigit = true := by
  simpa [isNameChar, Char.isAlphanum] using h

theorem isAlphanum_of_ne {c : Char} (h : isNameChar c = true) (hc : c ≠ '_') :
    c.isAlphanum = true := by
  simpa [Char.isAlphanum] using (isNameChar_cases h).resolve_left hc

/-- The characters of names are ASCII. -/
theorem isAscii_of_isNameChar {c : Char} (h : isNameChar c = true) : IsAscii c := by
  by_cases hc : c = '_'
  · rw [hc]
    decide
  · exact isAscii_of_isAlphanum (isAlphanum_of_ne h hc)

/-- A name consists of them throughout, its first character included. -/
theorem forall_isNameChar {text : List Char} (h : IsName text) : ∀ c ∈ text, isNameChar c = true := by
  obtain ⟨c, rest, rfl, hc, hrest⟩ := h
  exact List.forall_mem_cons.mpr ⟨isNameChar_of_isNameStart hc, hrest⟩

theorem toLower_of_isAlpha {c : Char} (h : c.isAlpha = true) : c.toLower.isLower = true := by
  rw [Char.isLower_toLower_eq_isAlpha, h]

theorem toLower_of_isDigit {c : Char} (h : c.isDigit = true) : c.toLower = c :=
  Char.toLower_eq_of_not_isUpper (by simp [isUpper_eq_false_of_isDigit h])

/-- In lower case, a character of names is one of the small ones. -/
theorem isSmallNameChar_toLower {c : Char} (h : isNameChar c = true) :
    isSmallNameChar c.toLower = true := by
  unfold isSmallNameChar
  rcases isNameChar_cases h with rfl | h | h
  · decide
  · simp [toLower_of_isAlpha h]
  · simp [toLower_of_isDigit h, h]

theorem isNameChar_of_isSmallNameChar {c : Char} (h : isSmallNameChar c = true) :
    isNameChar c = true := by
  unfold isSmallNameChar at h
  unfold isNameChar Char.isAlphanum Char.isAlpha
  simp only [Bool.or_eq_true] at h ⊢
  tauto

/-- None of them is a capital. -/
theorem isUpper_eq_false_of_isSmallNameChar {c : Char} (h : isSmallNameChar c = true) :
    c.isUpper = false := by
  unfold isSmallNameChar at h
  simp only [Bool.or_eq_true, beq_iff_eq] at h
  rcases h with (rfl | h) | h
  · decide
  · exact Bool.eq_false_iff.mpr (Char.not_isUpper_of_isLower h)
  · exact isUpper_eq_false_of_isDigit h

/-- What a name starts with is in lower case an underscore or a small letter. -/
theorem toLower_of_isNameStart {c : Char} (h : isNameStart c = true) :
    c.toLower = '_' ∨ c.toLower.isLower = true := by
  unfold isNameStart at h
  rcases Bool.or_eq_true_iff.mp h with h | h
  · rw [eq_of_beq h]
    decide
  · exact .inr (toLower_of_isAlpha h)

/-- Among the characters of names, only the underscore is neither a letter nor a digit. -/
theorem isAlphanumeric_eq_bne {c : Char} (h : isNameChar c = true) :
    isAlphanumeric c = (c != '_') := by
  rw [(isAscii_of_isNameChar h).isAlphanumeric_eq]
  by_cases hc : c = '_'
  · rw [hc]
    decide
  · rw [isAlphanum_of_ne h hc, bne_iff_ne.mpr hc]

/-- The lower-case form of a letter is no digit, and that of a digit is one. -/
theorem isDigit_toLower_eq_false_iff {c : Char} (h : isNameChar c = true) (hc : c ≠ '_') :
    c.toLower.isDigit = false ↔ c.isAlpha = true := by
  constructor
  · intro hdigit
    rcases isNameChar_cases h with rfl | h | h
    · exact absurd rfl hc
    · exact h
    · rw [toLower_of_isDigit h, h] at hdigit
      exact absurd hdigit (by decide)
  · intro halpha
    exact isDigit_eq_false_of_isLower (toLower_of_isAlpha halpha)

/-! ## Names of functions -/

/-- A small letter or an underscore, followed by small letters, digits and underscores. (Words that the
language reserves are of this form, too; it is only the form that this is about.) -/
def IsFunctionName (text : List Char) : Prop :=
  ∃ c rest, text = c :: rest ∧ (c = '_' ∨ c.isLower = true) ∧ ∀ x ∈ rest, isSmallNameChar x = true

/-- A function name consists of small characters and does not start with a digit. -/
theorem isFunctionName_iff {text : List Char} :
    IsFunctionName text ↔
      (∀ x ∈ text, isSmallNameChar x = true) ∧ ∃ c ∈ text.head?, c.isDigit = false := by
  constructor
  · rintro ⟨c, rest, rfl, hc, hrest⟩
    have hsmall : isSmallNameChar c = true := by
      unfold isSmallNameChar
      rcases hc with rfl | hc <;> simp [*]
    refine ⟨List.forall_mem_cons.mpr ⟨hsmall, hrest⟩, c, rfl, ?_⟩
    rcases hc with rfl | hc
    · decide
    · exact isDigit_eq_false_of_isLower hc
  · rintro ⟨hall, c, hhead, hdigit⟩
    obtain ⟨rest, rfl⟩ := List.head?_eq_some_iff.mp hhead
    obtain ⟨hc, hrest⟩ := List.forall_mem_cons.mp hall
    refine ⟨c, rest, rfl, ?_, hrest⟩
    unfold isSmallNameChar at hc
    simpa [hdigit] using hc

namespace IsFunctionName

variable {text : List Char}

/-- A function name is a name. -/
theorem isName (h : IsFunctionName text) : IsName text := by
  obtain ⟨c, rest, rfl, hc, hrest⟩ := h
  refine ⟨c, rest, rfl, ?_, fun x hx => isNameChar_of_isSmallNameChar (hrest x hx)⟩
  unfold isNameStart Char.isAlpha
  rcases hc with rfl | hc <;> simp [*]

theorem isUpper_eq_false (h : IsFunctionName text) : ∀ c ∈ text, c.isUpper = false := fun c hc =>
  isUpper_eq_false_of_isSmallNameChar ((isFunctionName_iff.mp h).1 c hc)

end IsFunctionName

/-! ## Snake forms -/

section

variable {text : List Char} (h : ∀ c ∈ text, isNameChar c = true)

include h

/-- The snake form of a name consists of small characters. -/
theorem forall_mem_snakeText : ∀ x ∈ Casing.snakeText text, isSmallNameChar x = true := by
  have hwords : ∀ w ∈ words text, ∀ c ∈ w, isNameChar c = true := fun w hw c hc =>
    h c (subset_of_mem_words hw hc)
  have hjoined : ∀ c ∈ ['_'].intercalate (words text), isNameChar c = true :=
    forall_mem_intercalate (by simp [isNameChar]) hwords
  rw [snakeText_eq fun c hc => isAscii_of_isNameChar (h c hc)]
  intro x hx
  obtain ⟨c, hc, rfl⟩ := List.mem_map.mp hx
  exact isSmallNameChar_toLower (hjoined c hc)

/-- The snake form starts with the first character of the name that is not an underscore. -/
theorem head?_snakeText :
    (Casing.snakeText text).head? = (text.find? (· != '_')).map Char.toLower := by
  have hkept : text.filter isAlphanumeric = text.filter (· != '_') :=
    List.filter_congr fun c hc => isAlphanumeric_eq_bne (h c hc)
  rw [snakeText_eq fun c hc => isAscii_of_isNameChar (h c hc), List.head?_map,
    head?_intercalate (nil_not_mem_words text), flatten_words, hkept, List.head?_filter]

/-- The first character that is not an underscore decides. -/
theorem isFunctionName_snakeText_iff :
    IsFunctionName (Casing.snakeText text) ↔ ∃ c ∈ text.find? (· != '_'), c.isAlpha = true := by
  rw [isFunctionName_iff, head?_snakeText h]
  constructor
  · rintro ⟨-, x, hx, hdigit⟩
    obtain ⟨c, hc, rfl⟩ := Option.map_eq_some_iff.mp hx
    have hne : c ≠ '_' := by simpa using List.find?_some hc
    exact ⟨c, hc, (isDigit_toLower_eq_false_iff (h c (List.mem_of_find?_eq_some hc)) hne).mp hdigit⟩
  · rintro ⟨c, hc, halpha⟩
    have hne : c ≠ '_' := by simpa using List.find?_some hc
    refine ⟨forall_mem_snakeText h, c.toLower, ?_, ?_⟩
    · rw [Option.mem_def.mp hc]
      rfl
    · exact (isDigit_toLower_eq_false_iff (h c (List.mem_of_find?_eq_some hc)) hne).mpr halpha

end

/-! ## Constants -/

/-- The line that opens the function of a constant, around a name that a function can have. -/
def IsFunctionHead (line : List Char) : Prop :=
  ∃ name, IsFunctionName name ∧
    line = functionIndent.toList ++ ("def ".toList ++ (name ++ " do".toList))

/-- What opens a function names it. -/
theorem isFunctionHead_iff {name : List Char} :
    IsFunctionHead (functionIndent.toList ++ ("def ".toList ++ (name ++ " do".toList))) ↔
      IsFunctionName name := by
  constructor
  · rintro ⟨other, hother, heq⟩
    have hname := List.append_cancel_right (List.append_cancel_left (List.append_cancel_left heq))
    rwa [hname]
  · intro h
    exact ⟨name, h, rfl⟩

/-- The first line of a constant is the one that names it. -/
theorem head?_splitOn_constant {name : String} (hname : '\n' ∉ name.toList) (text : String) :
    ((constant name text).toList.splitOn '\n').head?
      = some (functionIndent.toList ++ ("def ".toList ++ (name.toList ++ " do".toList))) := by
  rw [splitOn_constant hname]
  rfl

theorem newline_not_mem_of_isSmallNameChar {text : List Char}
    (h : ∀ c ∈ text, isSmallNameChar c = true) : '\n' ∉ text := fun hmem =>
  absurd (h '\n' hmem) (by decide)

/-- The default casing, across underscores. -/
theorem rename_eq_snakeText {renamer : Renamer} {category : Category}
    (hcasing : renamer.convention.treatment category = .transform defaultCasing)
    (hflag : renamer.transformUnderscore = true) (name : String) :
    (renamer.rename name category).toList = Casing.snakeText name.toList := by
  unfold Renamer.rename Renamer.recase
  rw [hcasing, hflag]
  exact String.toList_ofList

/-- **When a constant has a name that a function can have.** With the default casing across
underscores and without affixes, the constant of a fragment or of an operation has such a name, and
the line that opens its function is in order, just when the first character of the source's name that
is not an underscore is a letter. In any case the name consists of small letters, digits and
underscores. -/
theorem isFunctionName_constantName_iff {s : Settings}
    (hcasing : s.renamer.convention.treatment .typeNames = .transform defaultCasing)
    (hflag : s.renamer.transformUnderscore = true) (haffixes : s.affixes = ⟨"", "", "", ""⟩)
    {name : String} (hname : IsName name.toList) (text : String) :
    s.operationConstantName name = s.fragmentConstantName name ∧
      (∀ c ∈ (s.fragmentConstantName name).toList, isSmallNameChar c = true) ∧
      (IsFunctionName (s.fragmentConstantName name).toList ↔
        ∃ c ∈ name.toList.find? (· != '_'), c.isAlpha = true) ∧
      ((∃ line ∈ ((constant (s.fragmentConstantName name) text).toList.splitOn '\n').head?,
          IsFunctionHead line) ↔
        ∃ c ∈ name.toList.find? (· != '_'), c.isAlpha = true) := by
  have hchars := forall_isNameChar hname
  -- Without affixes both kinds of constants are named alike.
  have hfragment : s.fragmentConstantName name = s.renamer.rename name .typeNames := by
    unfold Settings.fragmentConstantName
    rw [haffixes, String.empty_append, String.append_empty]
  have hoperation : s.operationConstantName name = s.renamer.rename name .typeNames := by
    unfold Settings.operationConstantName
    rw [haffixes, String.empty_append, String.append_empty]
  have hsnake := rename_eq_snakeText hcasing hflag name
  have hsmall := forall_mem_snakeText hchars
  have hiff := isFunctionName_snakeText_iff hchars
  rw [← hsnake] at hsmall hiff
  rw [hoperation, hfragment, head?_splitOn_constant (newline_not_mem_of_isSmallNameChar hsmall) text]
  refine ⟨rfl, hsmall, hiff, ?_⟩
  rw [← hiff, ← isFunctionHead_iff]
  simp

/-- The settings of a configuration that only sets the flag for underscores. -/
def acrossUnderscores : Settings where
  moduleName := Config.defaultModuleName
  renamer := ⟨.default, true⟩
  affixes := ⟨"", "", "", ""⟩

example : Settings.resolve { transformUnderscore := some true } = .ok acrossUnderscores := rfl

/-- With words, digits and underscores on both sides. -/
theorem isFunctionName_constantName_http2Server :
    IsName "__HTTP2Server_v3".toList ∧
      acrossUnderscores.fragmentConstantName "__HTTP2Server_v3" = "http2_server_v3" ∧
      acrossUnderscores.operationConstantName "__HTTP2Server_v3" = "http2_server_v3" ∧
      IsFunctionName (acrossUnderscores.fragmentConstantName "__HTTP2Server_v3").toList := by
  have hname : IsName "__HTTP2Server_v3".toList :=
    ⟨'_', "_HTTP2Server_v3".toList, by decide, by decide, List.all_eq_true.mp (by decide)⟩
  have hfragment : acrossUnderscores.fragmentConstantName "__HTTP2Server_v3" = "http2_server_v3" := rfl
  obtain ⟨hoperation, -, hiff, -⟩ :=
    isFunctionName_constantName_iff (s := acrossUnderscores) rfl rfl rfl hname "query"
  exact ⟨hname, hfragment, hoperation.trans hfragment, hiff.mpr ⟨'H', by decide, by decide⟩⟩

/-- Of a name without letters only its digits are left, and of an underscore nothing; neither is a
name that a function can have. -/
theorem constantName_withoutLetters :
    (IsName "_1".toList ∧ acrossUnderscores.fragmentConstantName "_1" = "1" ∧
        ¬ IsFunctionName (acrossUnderscores.fragmentConstantName "_1").toList) ∧
      IsName "_".toList ∧ acrossUnderscores.fragmentConstantName "_" = "" ∧
        ¬ IsFunctionName (acrossUnderscores.fragmentConstantName "_").toList := by
  have hdigit : acrossUnderscores.fragmentConstantName "_1" = "1" := rfl
  have hnothing : acrossUnderscores.fragmentConstantName "_" = "" := rfl
  refine ⟨⟨⟨'_', ['1'], by decide, by decide, List.all_eq_true.mp (by decide)⟩, hdigit, ?_⟩,
    ⟨'_', [], by decide, by decide, by simp⟩, hnothing, ?_⟩
  · rw [hdigit]
    rintro ⟨c, rest, heq, hc, -⟩
    obtain rfl : '1' = c := (List.cons.inj heq).1
    exact absurd hc (by decide)
  · rw [hnothing]
    rintro ⟨c, rest, heq, -⟩
    exact absurd heq (by simp)

end QueryModule.Naming
