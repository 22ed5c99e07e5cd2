import QueryModule.Proofs.Naming.FunctionNames

/-!
# Where a name gains underscores

Restyled between its underscores, a name in snake case is the name itself in small letters, with
underscores put in at the places where the words of a piece meet. `separated` finds these places in one
pass over the whole name: an underscore goes in front of a capital when the letter before it, since
the last underscore, is a small one, or when it is a capital and a small letter follows.

> `betweenUnderscores_snake`: the scan for words, piece by piece, amounts to this one pass.
>
> `spaced_separated`: what is put in is single underscores, each in front of a capital and behind a
> letter or a digit, and nothing of the name is lost or moved (`Spaced`).

So the restyled name can be that of a function, and restyling it again changes nothing.
-/

namespace QueryModule.Naming

open QueryModule.Graphql (IsName isNameStart isNameChar)
open QueryModule.Unicode (IsAscii isAlphanumeric isLower isUpper)

/-! ## One pass -/

/-- Does a word begin with the capital `c`, when the letter before it has the case of `s` and `next`
follows? -/
def beginsWord (s : Stretch) (c : Char) (next : Option Char) : Bool :=
  isUpper c && (s = .lower || s = .upper && next.any isLower)

/-- A text with an underscore in front of each character that a word begins with although no underscore
stands there. -/
def separated (s : Stretch) : List Char → List Char
  | [] => []
  | c :: rest =>
    if c = '_' then c :: separated .none rest
    else if beginsWord s c rest.head? then '_' :: c :: separated (s.next c) rest
    else c :: separated (s.next c) rest

section

variable {s : Stretch} {c d : Char} {rest : List Char}

theorem separated_underscore (rest : List Char) :
    separated s ('_' :: rest) = '_' :: separated .none rest := by
  rw [separated, if_pos rfl]

theorem separated_begin (hc : c ≠ '_') (h : beginsWord s c rest.head? = true) :
    separated s (c :: rest) = '_' :: c :: separated (s.next c) rest := by
  rw [separated, if_neg hc, if_pos h]

theorem separated_keep (hc : c ≠ '_') (h : beginsWord s c rest.head? = false) :
    separated s (c :: rest) = c :: separated (s.next c) rest := by
  rw [separated, if_neg hc, h]
  rfl

/-- No word begins behind an underscore. -/
theorem beginsWord_none (next : Option Char) : beginsWord .none c next = false := by
  unfold beginsWord
  simp

/-- Words that begin within a run do so with a capital. -/
theorem beginsWord_eq_false (h : isUpper c = false) (next : Option Char) :
    beginsWord s c next = false := by
  unfold beginsWord
  rw [h, Bool.false_and]

/-- Behind a capital the scan is in upper case. -/
theorem next_of_isUpper (hc : IsAscii c) (h : isUpper c = true) : s.next c = .upper := by
  rw [Stretch.next, hc.isLower_eq_false h, h]
  rfl

/-- Where a capital stands behind a small letter, a word begins. -/
theorem separated_lower_of_isUpper (hascii : IsAscii c) (hc : c ≠ '_') (h : isUpper c = true) :
    separated .lower (c :: rest) = '_' :: separated .none (c :: rest) := by
  have hbegins : beginsWord .lower c rest.head? = true := by simp [beginsWord, h]
  rw [separated_begin hc hbegins, separated_keep hc (beginsWord_none _), next_of_isUpper hascii h,
    next_of_isUpper hascii h]

/-- What is in front of a small letter has no influence on what comes from there on. -/
theorem separated_eq_of_isLower (hascii : IsAscii c) (hc : c ≠ '_') (h : isLower c = true) :
    separated s (c :: rest) = separated .none (c :: rest) := by
  have hsmall := hascii.isUpper_eq_false h
  rw [separated_keep hc (beginsWord_eq_false hsmall _),
    separated_keep hc (beginsWord_eq_false hsmall _), Stretch.next, Stretch.next, if_pos h, if_pos h]

end

/-! ## The scan for words -/

/-- The words of a run joined with underscores are the run with underscores put in. The scan is not
behind a small letter when a capital comes: it would have ended the word there. -/
theorem intercalate_wordsFrom (s : Stretch) (text : List Char)
    (htext : ∀ c ∈ text, IsAscii c ∧ c ≠ '_')
    (hs : s = .lower → ∀ c ∈ text.head?, isUpper c = false) :
    ['_'].intercalate (wordsFrom s text) = separated s text := by
  fun_induction wordsFrom s text with
  | case1 => rfl
  | case2 s c =>
    -- The text ends with `c`, and no word begins with its last character.
    have hbegins : beginsWord s c none = false := by
      cases s with
      | lower => exact beginsWord_eq_false (hs rfl c rfl) none
      | none | upper => simp [beginsWord]
    rw [separated_keep (htext c (List.mem_cons_self ..)).2 hbegins]
    rfl
  | case3 s c d rest hends ih =>
    -- A capital behind a small letter begins a word; the underscore comes behind `c`.
    obtain ⟨hlower, hd⟩ : s.next c = .lower ∧ isUpper d = true := by simpa using hends
    obtain ⟨⟨hascii, hc⟩, hrest⟩ := List.forall_mem_cons.mp htext
    obtain ⟨hdascii, hdne⟩ := hrest d (List.mem_cons_self ..)
    have hsmall : isUpper c = false := by
      rw [← Bool.not_eq_true]
      intro hupper
      rw [next_of_isUpper hascii hupper] at hlower
      exact absurd hlower (by decide)
    rw [List.intercalate_cons_of_ne_nil (wordsFrom_ne_nil _ (by simp)), ih hrest (by simp),
      separated_keep hc (beginsWord_eq_false hsmall _), hlower, separated_lower_of_isUpper hdascii hdne hd]
    rfl
  | case4 s c d rest _ hends ih =>
    -- The last one of several capitals begins a word with the small letter behind it.
    obtain ⟨⟨hupper, hc⟩, hd⟩ : (s = .upper ∧ isUpper c = true) ∧ isLower d = true := by
      simpa using hends
    obtain ⟨⟨-, hcne⟩, hrest⟩ := List.forall_mem_cons.mp htext
    obtain ⟨hdascii, hdne⟩ := hrest d (List.mem_cons_self ..)
    have hbegins : beginsWord s c (d :: rest).head? = true := by simp [beginsWord, hupper, hc, hd]
    have hne : growFirst c (wordsFrom .none (d :: rest)) ≠ [] := by
      cases wordsFrom .none (d :: rest) <;> simp [growFirst]
    rw [List.intercalate_cons_of_ne_nil hne, intercalate_growFirst, ih hrest (by simp),
      separated_begin hcne hbegins, separated_eq_of_isLower (s := s.next c) hdascii hdne hd]
    rfl
  | case5 s c d rest hends hbreaks ih =>
    -- Nothing ends here, and `c` goes on with the word.
    obtain ⟨⟨hascii, hcne⟩, hrest⟩ := List.forall_mem_cons.mp htext
    have hbegins : beginsWord s c (d :: rest).head? = false := by
      rw [← Bool.not_eq_true]
      intro hbegins
      simp only [beginsWord, Bool.and_eq_true, Bool.or_eq_true, decide_eq_true_eq, List.head?_cons,
        Option.any_some] at hbegins
      obtain ⟨hc, hlower | ⟨hupper, hd⟩⟩ := hbegins
      · rw [hs hlower c rfl] at hc
        exact absurd hc (by decide)
      · exact hbreaks (by simp [hupper, hc, hd])
    have hnext : s.next c = .lower → ∀ x ∈ (d :: rest).head?, isUpper x = false := by
      intro hlower x hx
      obtain rfl : d = x := Option.some.inj hx
      simpa [hlower] using hends
    rw [intercalate_growFirst, ih hrest hnext, separated_keep hcne hbegins]

/-! ## Whole names -/

/-- A piece of a name in snake case. -/
theorem snakeText_piece {piece : List Char} (h : ∀ c ∈ piece, isNameChar c = true)
    (hpiece : '_' ∉ piece) :
    Casing.snakeText piece = (separated .none piece).map Char.toLower := by
  have hchars : ∀ c ∈ piece, IsAscii c ∧ c ≠ '_' := fun c hc =>
    ⟨isAscii_of_isNameChar (h c hc), fun heq => hpiece (heq ▸ hc)⟩
  have halnum : ∀ c ∈ piece, isAlphanumeric c = true := by
    intro c hc
    rw [isAlphanumeric_eq_bne (h c hc), bne_iff_ne]
    exact (hchars c hc).2
  rw [snakeText_eq fun c hc => (hchars c hc).1, words, runs_eq_singleton halnum,
    List.flatMap_singleton, intercalate_wordsFrom .none piece hchars (by simp)]

/-- A test that a separator fails comes out the same for the first character of a text and for that of
its first piece. -/
theorem any_head?_of_splitAt {p : Char → Bool} {separator : Char} (hp : p separator = false)
    {text piece : List Char} {others : List (List Char)}
    (h : Text.splitAt separator text = piece :: others) :
    piece.head?.any p = text.head?.any p := by
  cases text with
  | nil =>
    obtain ⟨rfl, -⟩ := List.cons.inj h
    rfl
  | cons c rest =>
    obtain ⟨first, more, hpieces⟩ := List.exists_cons_of_ne_nil (Text.splitAt_ne_nil separator rest)
    rw [Text.splitAt, hpieces] at h
    split at h
    next hc =>
      obtain ⟨rfl, -⟩ := List.cons.inj h
      rw [hc]
      exact hp.symm
    next =>
      obtain ⟨rfl, -⟩ := List.cons.inj h
      rfl

/-- At an underscore the pass starts anew; so it can be done piece by piece, where the first piece goes
on with what was before. -/
theorem separated_eq_intercalate {text piece : List Char} {others : List (List Char)} (s : Stretch)
    (h : Text.splitAt '_' text = piece :: others) :
    separated s text = ['_'].intercalate (separated s piece :: others.map (separated .none)) := by
  induction text generalizing s piece others with
  | nil =>
    obtain ⟨rfl, rfl⟩ := List.cons.inj h
    rfl
  | cons c rest ih =>
    obtain ⟨first, more, hpieces⟩ := List.exists_cons_of_ne_nil (Text.splitAt_ne_nil '_' rest)
    rw [Text.splitAt, hpieces] at h
    split at h
    next hc =>
      obtain ⟨rfl, rfl⟩ := List.cons.inj h
      subst hc
      rw [separated_underscore, ih .none hpieces]
      rfl
    next hc =>
      obtain ⟨rfl, rfl⟩ := List.cons.inj h
      -- Whether a word begins here depends on the next character only if that is a small letter.
      have hbegins : beginsWord s c first.head? = beginsWord s c rest.head? := by
        have hunderscore : isLower '_' = false := IsAscii.isLower_eq (by decide)
        rw [beginsWord, beginsWord, any_head?_of_splitAt hunderscore hpieces]
      cases hword : beginsWord s c rest.head? with
      | true =>
        rw [separated_begin hc hword, separated_begin hc (hbegins.trans hword), ih _ hpieces,
          List.intercalate_cons_cons_left, List.intercalate_cons_cons_left]
      | false =>
        rw [separated_keep hc hword, separated_keep hc (hbegins.trans hword), ih _ hpieces,
          List.intercalate_cons_cons_left]

/-- **Where the underscores go.** Restyled between its underscores, a name is in snake case the name in
small letters, with underscores put in by one pass. -/
theorem betweenUnderscores_snake {text : List Char} (h : ∀ c ∈ text, isNameChar c = true) :
    Renamer.betweenUnderscores .snake text = (separated .none text).map Char.toLower := by
  obtain ⟨piece, others, hpieces⟩ := List.exists_cons_of_ne_nil (Text.splitAt_ne_nil '_' text)
  have hsnake : ∀ w ∈ Text.splitAt '_' text,
      Casing.snake.restyleChars w = (separated .none w).map Char.toLower := fun w hw =>
    snakeText_piece (fun c hc => h c (Text.subset_of_mem_splitAt '_' text w hw hc))
      (Text.not_mem_of_mem_splitAt '_' text w hw)
  calc Renamer.betweenUnderscores .snake text
      = ['_'].intercalate
          ((Text.splitAt '_' text).map fun w => (separated .none w).map Char.toLower) := by
        rw [Renamer.betweenUnderscores, List.map_congr_left hsnake]
    _ = (['_'].intercalate ((Text.splitAt '_' text).map (separated .none))).map Char.toLower := by
        rw [map_intercalate, List.map_map]
        rfl
    _ = (separated .none text).map Char.toLower := by
        rw [separated_eq_intercalate .none hpieces, hpieces, List.map_cons]

/-! ## What is put in -/

/-- The second text is the first one in small letters, with single underscores put in, each in front of
a capital and behind a letter or a digit. `before` is what stands in front of the first text. -/
inductive Spaced : Option Char → List Char → List Char → Prop where
  | nil {before : Option Char} : Spaced before [] []
  | keep {before : Option Char} {c : Char} {rest result : List Char} :
      Spaced (some c) rest result → Spaced before (c :: rest) (c.toLower :: result)
  | separate {b c : Char} {rest result : List Char} (hb : b.isAlphanum = true)
      (hc : c.isUpper = true) :
      Spaced (some c) rest result → Spaced (some b) (c :: rest) ('_' :: c.toLower :: result)

/-- Underscores are put in only while a letter has been seen since the last one, and so behind a letter
or a digit. -/
theorem spaced_separated {s : Stretch} {before : Option Char} {text : List Char}
    (htext : ∀ c ∈ text, isNameChar c = true)
    (hs : s ≠ .none → ∃ b, before = some b ∧ b.isAlphanum = true) :
    Spaced before text ((separated s text).map Char.toLower) := by
  induction text generalizing s before with
  | nil => exact .nil
  | cons c rest ih =>
    obtain ⟨hc, hrest⟩ := List.forall_mem_cons.mp htext
    by_cases hne : c = '_'
    · -- Behind an underscore everything starts anew.
      subst hne
      rw [separated_underscore]
      exact .keep (ih hrest fun h => absurd rfl h)
    have hnext : Spaced (some c) rest ((separated (s.next c) rest).map Char.toLower) :=
      ih hrest fun _ => ⟨c, rfl, isAlphanum_of_ne hc hne⟩
    cases hbegins : beginsWord s c rest.head? with
    | false =>
      rw [separated_keep hne hbegins]
      exact .keep hnext
    | true =>
      -- A word begins within a run with a capital only, and so behind a letter or a digit.
      have hupper : isUpper c = true := (Bool.and_eq_true_iff.mp hbegins).1
      rw [(isAscii_of_isNameChar hc).isUpper_eq] at hupper
      have hstarted : s ≠ .none := by
        rintro rfl
        rw [beginsWord_none] at hbegins
        exact absurd hbegins (by decide)
      obtain ⟨b, rfl, hb⟩ := hs hstarted
      rw [separated_begin hne hbegins]
      exact .separate hb hupper hnext

namespace Spaced

variable {before : Option Char} {text result : List Char}

/-- What is put in small letters and spaced consists of small characters. -/
theorem forall_isSmallNameChar (h : Spaced before text result)
    (htext : ∀ c ∈ text, isNameChar c = true) : ∀ x ∈ result, isSmallNameChar x = true := by
  induction h with
  | nil => simp
  | keep _ ih =>
    obtain ⟨hc, hrest⟩ := List.forall_mem_cons.mp htext
    exact List.forall_mem_cons.mpr ⟨isSmallNameChar_toLower hc, ih hrest⟩
  | separate _ _ _ ih =>
    obtain ⟨hc, hrest⟩ := List.forall_mem_cons.mp htext
    exact List.forall_mem_cons.mpr ⟨by decide,
      List.forall_mem_cons.mpr ⟨isSmallNameChar_toLower hc, ih hrest⟩⟩

/-- A text without capitals stays what it is. -/
theorem eq_self (h : Spaced before text result) (htext : ∀ c ∈ text, c.isUpper = false) :
    result = text := by
  induction h with
  | nil => rfl
  | keep _ ih =>
    obtain ⟨hc, hrest⟩ := List.forall_mem_cons.mp htext
    rw [Char.toLower_eq_of_not_isUpper (by simp [hc]), ih hrest]
  | separate _ hupper =>
    obtain ⟨hc, -⟩ := List.forall_mem_cons.mp htext
    rw [hc] at hupper
    exact absurd hupper (by decide)

/-- Nothing is put in front of the first character of a name; so a name yields what a function can be
called. -/
theorem isFunctionName (h : Spaced none text result) (hname : IsName text) : IsFunctionName result := by
  have hsmall := h.forall_isSmallNameChar (forall_isNameChar hname)
  obtain ⟨c, rest, rfl, hc, -⟩ := hname
  cases h with
  | keep _ =>
    obtain ⟨-, hrest⟩ := List.forall_mem_cons.mp hsmall
    exact ⟨c.toLower, _, rfl, toLower_of_isNameStart hc, hrest⟩

/-- Where nothing has changed there were no capitals. -/
theorem eq_self_iff (h : Spaced before text result) (htext : ∀ c ∈ text, isNameChar c = true) :
    result = text ↔ ∀ c ∈ text, c.isUpper = false := by
  constructor
  · intro heq c hc
    have hsmall := h.forall_isSmallNameChar htext
    rw [heq] at hsmall
    exact isUpper_eq_false_of_isSmallNameChar (hsmall c hc)
  · exact h.eq_self

end Spaced

/-! ## Renaming -/

/-- The default casing, between underscores. -/
theorem rename_eq_separated {renamer : Renamer} {category : Category}
    (hcasing : renamer.convention.treatment category = .transform defaultCasing)
    (hflag : renamer.transformUnderscore = false) {name : String}
    (hname : ∀ c ∈ name.toList, isNameChar c = true) :
    (renamer.rename name category).toList = (separated .none name.toList).map Char.toLower := by
  rw [← betweenUnderscores_snake hname]
  unfold Renamer.rename Renamer.recase
  rw [hcasing, hflag]
  exact String.toList_ofList

/-- **A default name only gains separators.** Where underscores are kept, the default casing puts a
name in small letters and single underscores in it, at the places that one pass over the name finds,
each in front of a capital and behind a letter or a digit; nothing of the name is lost or moved. So the
result can be the name of a function, it is the name itself just when that has no capitals, and
renaming it again changes nothing. -/
theorem rename_default_spaced {renamer : Renamer} {category : Category}
    (hcasing : renamer.convention.treatment category = .transform defaultCasing)
    (hflag : renamer.transformUnderscore = false) {name : String} (hname : IsName name.toList) :
    (renamer.rename name category).toList = (separated .none name.toList).map Char.toLower ∧
      Spaced none name.toList (renamer.rename name category).toList ∧
      IsFunctionName (renamer.rename name category).toList ∧
      (renamer.rename name category = name ↔ ∀ c ∈ name.toList, c.isUpper = false) ∧
      renamer.rename (renamer.rename name category) category = renamer.rename name category := by
  -- Each fact holds of any name, and so of what a name is renamed to, too.
  have hspaced : ∀ {n : String}, IsName n.toList →
      Spaced none n.toList (renamer.rename n category).toList := by
    intro n hn
    rw [rename_eq_separated hcasing hflag (forall_isNameChar hn)]
    exact spaced_separated (forall_isNameChar hn) fun h => absurd rfl h
  have hself : ∀ {n : String}, IsName n.toList →
      (renamer.rename n category = n ↔ ∀ c ∈ n.toList, c.isUpper = false) := by
    intro n hn
    rw [← (hspaced hn).eq_self_iff (forall_isNameChar hn), String.toList_inj]
  have hfunction := (hspaced hname).isFunctionName hname
  refine ⟨rename_eq_separated hcasing hflag (forall_isNameChar hname), hspaced hname, hfunction,
    hself hname, ?_⟩
  exact (hself hfunction.isName).mpr hfunction.isUpper_eq_false

/-- The renamer that applies when nothing is configured. -/
def Renamer.default : Renamer := ⟨.default, false⟩

example : Renamer.resolve none none = .ok .default := rfl

/-- With capitals side by side, a digit and two underscores; renaming again changes nothing. -/
theorem rename_default_getHTTPServer :
    IsName "_getHTTPServer2Go__v2".toList ∧
      Renamer.default.rename "_getHTTPServer2Go__v2" .typeNames = "_get_http_server2_go__v2" ∧
      Spaced none "_getHTTPServer2Go__v2".toList
        (Renamer.default.rename "_getHTTPServer2Go__v2" .typeNames).toList ∧
      Renamer.default.rename "_get_http_server2_go__v2" .typeNames = "_get_http_server2_go__v2" := by
  have hname : IsName "_getHTTPServer2Go__v2".toList :=
    ⟨'_', "getHTTPServer2Go__v2".toList, by decide, by decide, List.all_eq_true.mp (by decide)⟩
  have hrenamed : Renamer.default.rename "_getHTTPServer2Go__v2" .typeNames
      = "_get_http_server2_go__v2" := rfl
  obtain ⟨-, hspaced, -, -, hagain⟩ :=
    @rename_default_spaced .default .typeNames rfl rfl "_getHTTPServer2Go__v2" hname
  rw [hrenamed] at hagain
  exact ⟨hname, hrenamed, hspaced, hagain⟩

end QueryModule.Naming
