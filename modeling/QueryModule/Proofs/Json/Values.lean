import QueryModule.Proofs.Json.NumberValues
import QueryModule.Proofs.Json.Sequences

/-!
# Values in JSON texts

The three ways of reading values are exact: as a tree, which is whatever the text spells (`exact_tree`); in
one wanted form (`exact_string`, `exact_boolean`, `Exact.optional`); and for their end, where only the
syntax counts (`exact_skipValue`). Since a reader has one result at most, what it is exact for determines
the text that it takes: a text is the text of one value in one way.
-/

namespace QueryModule.Json

variable {α β : Type} {text rest : List Char}

/-! ## Values without parts -/

/-- Digits are no white space. -/
theorem not_isSpace_of_isDigit {c : Char} (h : c.isDigit = true) : isSpace c = false := by
  have hbounds := Char.isDigit_iff_toNat.mp h
  refine Bool.eq_false_iff.mpr fun hspace => ?_
  unfold isSpace at hspace
  simp only [Bool.or_eq_true, beq_iff_eq] at hspace
  rcases hspace with ((rfl | rfl) | rfl) | rfl <;> exact absurd hbounds (by decide)

/-- A number without a sign starts with a digit. -/
theorem IsUnsigned.starts {used : List Char} (h : IsUnsigned used) :
    ∃ c more, used = c :: more ∧ c.isDigit = true := by
  obtain ⟨whole, fraction, exponent, rfl, ⟨⟨hne, hdigits⟩, -⟩, -, -⟩ := h
  obtain ⟨c, more, rfl⟩ := List.exists_cons_of_ne_nil hne
  exact ⟨c, _, rfl, hdigits c (List.mem_cons_self ..)⟩

/-- A text starts an item when its first character is neither white space nor the end of a list. -/
theorem startsItem_cons {c : Char} (hspace : isSpace c = false) (hc : c ≠ ']') (more : List Char) :
    StartsItem (c :: more) := ⟨c, more, rfl, hspace, hc⟩

theorem ne_of_isDigit {c d : Char} (h : c.isDigit = true) (hd : d.isDigit = false) : c ≠ d := by
  rintro rfl
  rw [h] at hd
  exact absurd hd (by simp)

/-- A number starts with a minus sign or a digit. -/
theorem IsNumber.starts {used : List Char} (h : IsNumber used) :
    ∃ c more, used = c :: more ∧ (c = '-' ∨ c.isDigit = true) := by
  cases h with
  | positive h =>
    obtain ⟨c, more, rfl, hc⟩ := h.starts
    exact ⟨c, more, rfl, .inr hc⟩
  | negative h => exact ⟨'-', _, rfl, .inl rfl⟩

/-- Every value without parts starts an item. -/
theorem IsScalar.startsItem {used : List Char} (h : IsScalar used) : StartsItem used := by
  cases h with
  | null => exact startsItem_cons rfl (by decide) _
  | yes => exact startsItem_cons rfl (by decide) _
  | no => exact startsItem_cons rfl (by decide) _
  | number h =>
    obtain ⟨c, more, rfl, rfl | hc⟩ := h.starts
    · exact startsItem_cons rfl (by decide) _
    · exact startsItem_cons (not_isSpace_of_isDigit hc) (ne_of_isDigit hc rfl) more
  | string h =>
    obtain ⟨body, -, rfl⟩ := h
    exact startsItem_cons rfl (by decide) _

/-- So does every value of a limited depth. -/
theorem IsJsonWithin.startsItem {levels : Nat} {used : List Char} (h : IsJsonWithin levels used) :
    StartsItem used := by
  cases levels with
  | zero => exact IsScalar.startsItem h
  | succ levels =>
    rcases h with h | ⟨_, inner, rfl, -⟩ | ⟨_, inner, rfl, -⟩
    · exact h.startsItem
    · exact startsItem_cons rfl (by decide) _
    · exact startsItem_cons rfl (by decide) _

theorem IsJson.startsItem {used : List Char} (h : IsJson used) : StartsItem used := by
  obtain ⟨levels, hlevels⟩ := h
  exact hlevels.startsItem

namespace Reader

/-- A word is read where its letters stand. -/
theorem word_eq_ok_iff {letters : List Char} :
    word letters text = .ok ((), rest) ↔ text = letters ++ rest := by
  induction letters generalizing text with
  | nil => rw [word, pure_eq_ok_iff, List.nil_append, and_iff_right rfl]
  | cons c letters ih =>
    unfold word
    cases text with
    | nil => exact ⟨nofun, nofun⟩
    | cons d text =>
      rw [List.cons_append, List.cons.injEq]
      dsimp only
      split
      · next h => rw [ih, and_iff_right h]
      · next h => exact ⟨nofun, fun heq => absurd heq.1 h⟩

/-- A word whose first character is next. -/
theorem advance_word_eq_ok_iff {c : Char} {letters : List Char} {a b : α} :
    (advance >>= fun _ => word letters >>= fun _ => (pure a : Reader α)) (c :: text) = .ok (b, rest) ↔
      text = letters ++ rest ∧ a = b := by
  rw [advance_then, then_eq_ok_iff]
  constructor
  · rintro ⟨⟨⟩, between, hword, hpure⟩
    obtain ⟨hab, rfl⟩ := pure_eq_ok_iff.mp hpure
    exact ⟨word_eq_ok_iff.mp hword, hab⟩
  · rintro ⟨htext, hab⟩
    exact ⟨(), rest, word_eq_ok_iff.mpr htext, pure_eq_ok_iff.mpr ⟨hab, rfl⟩⟩

/-- Without a minus sign the digits are read at once. -/
theorem number_of_ne {c : Char} (hc : c ≠ '-') (more : List Char) :
    number (c :: more) = numberFrom false (c :: more) := by
  show (if some c = some '-' then advance >>= fun _ => numberFrom true else numberFrom false)
    (c :: more) = _
  rw [if_neg (by simpa using hc)]

/-- What is read of a number is what its literal denotes. -/
theorem number_sound {n : Number} (h : number text = .ok (n, rest)) :
    ∃ used, text = used ++ rest ∧ NumberText n used := by
  cases text with
  | nil => exact absurd h (by simp [number, peek, bind, StateT.bind, Except.bind, numberFrom])
  | cons c more =>
  by_cases hc : c = '-'
  · subst hc
    obtain ⟨used, rfl, -, hn⟩ := numberFrom_eq_ok_iff.mp (show numberFrom true more = _ from h)
    exact ⟨'-' :: used, rfl, .negative hn⟩
  · rw [number_of_ne hc] at h
    obtain ⟨used, heq, -, hn⟩ := numberFrom_eq_ok_iff.mp h
    exact ⟨used, heq, .positive hn⟩

/-- A number that is in range is read wherever nothing behind it can belong to it. -/
theorem number_complete {used : List Char} {n : Number} (h : NumberText n used) (hrest : Delimited rest) :
    number (used ++ rest) = .ok (n, rest) := by
  cases h with
  | positive h =>
    have hunsigned := isUnsigned_of_unsignedText h
    obtain ⟨c, more, rfl, hc⟩ := hunsigned.starts
    rw [List.cons_append, number_of_ne (ne_of_isDigit hc rfl)]
    exact numberFrom_eq_ok_iff.mpr ⟨_, rfl, hrest.literal hunsigned, h⟩
  | @negative used h =>
    show numberFrom true (used ++ rest) = _
    exact numberFrom_eq_ok_iff.mpr ⟨used, rfl, hrest.literal (isUnsigned_of_unsignedText h), h⟩

/-- A value without parts has been taken, or a list or an object is next. -/
theorem scalar?_sound {c : Char} {found : Option Value} (h : scalar? c (c :: text) = .ok (found, rest)) :
    (∃ v used, found = some v ∧ c :: text = used ++ rest ∧ SpellsScalar v used) ∨
      found = none ∧ (c = '[' ∨ c = '\x7b') ∧ rest = c :: text := by
  unfold scalar? at h
  split at h
  · next hc =>
    obtain ⟨rfl, rfl⟩ := advance_word_eq_ok_iff.mp h
    exact .inl ⟨.null, _, rfl, congrArg (· :: _) hc, .null⟩
  split at h
  · next hc =>
    obtain ⟨rfl, rfl⟩ := advance_word_eq_ok_iff.mp h
    exact .inl ⟨.boolean true, _, rfl, congrArg (· :: _) hc, .yes⟩
  split at h
  · next hc =>
    obtain ⟨rfl, rfl⟩ := advance_word_eq_ok_iff.mp h
    exact .inl ⟨.boolean false, _, rfl, congrArg (· :: _) hc, .no⟩
  split at h
  · obtain ⟨n, between, hnumber, hpure⟩ := then_eq_ok_iff.mp h
    obtain ⟨rfl, rfl⟩ := pure_eq_ok_iff.mp hpure
    obtain ⟨used, heq, hused⟩ := number_sound hnumber
    exact .inl ⟨.number n, used, rfl, heq, .number hused⟩
  split at h
  · next hc =>
    subst hc
    rw [advance_then] at h
    obtain ⟨s, between, hstring, hpure⟩ := then_eq_ok_iff.mp h
    obtain ⟨rfl, rfl⟩ := pure_eq_ok_iff.mp hpure
    obtain ⟨used, heq, hused⟩ := stringBody_eq_ok_iff.mp hstring
    exact .inl ⟨.string s, used, rfl, heq, .string hused⟩
  split at h
  · next hc =>
    obtain ⟨rfl, rfl⟩ := pure_eq_ok_iff.mp h
    exact .inr ⟨rfl, by simpa using hc, rfl⟩
  · exact absurd h fail_ne_ok

/-- A value without parts is read wherever it cannot go on. -/
theorem scalar?_complete {c : Char} {more : List Char} {v : Value} (h : SpellsScalar v (c :: more))
    (hrest : Delimited rest) : scalar? c (c :: more ++ rest) = .ok (some v, rest) := by
  generalize hused : c :: more = used at h
  unfold scalar?
  cases h with
  | null =>
    obtain ⟨rfl, rfl⟩ := List.cons.inj hused
    exact advance_word_eq_ok_iff.mpr ⟨rfl, rfl⟩
  | yes =>
    obtain ⟨rfl, rfl⟩ := List.cons.inj hused
    exact advance_word_eq_ok_iff.mpr ⟨rfl, rfl⟩
  | no =>
    obtain ⟨rfl, rfl⟩ := List.cons.inj hused
    exact advance_word_eq_ok_iff.mpr ⟨rfl, rfl⟩
  | @number n _ hnumber =>
    have hc : c = '-' ∨ c.isDigit = true := by
      obtain ⟨d, more', rfl, hd⟩ := (isNumber_of_numberText hnumber).starts
      exact (List.cons.inj hused).1 ▸ hd
    -- No word starts like a number.
    have hne : ∀ d : Char, d ≠ '-' → d.isDigit = false → c ≠ d := by
      rintro d hd hd' rfl
      rcases hc with hc | hc
      · exact hd hc
      · rw [hc] at hd'
        exact absurd hd' (by simp)
    rw [if_neg (hne 'n' (by decide) rfl), if_neg (hne 't' (by decide) rfl),
      if_neg (hne 'f' (by decide) rfl), if_pos (by simpa using hc)]
    exact then_eq_ok_iff.mpr ⟨n, rest, number_complete hnumber hrest, rfl⟩
  | @string s _ hstring =>
    obtain rfl : c = '"' := by
      obtain ⟨body, -, rfl⟩ := hstring
      exact (List.cons.inj hused).1
    subst hused
    exact then_eq_ok_iff.mpr ⟨(), _, rfl,
      then_eq_ok_iff.mpr ⟨s, rest, stringBody_eq_ok_iff.mpr ⟨_, rfl, hstring⟩, rfl⟩⟩

theorem scalar?_bracket {c : Char} (h : c = '[' ∨ c = '\x7b') (text : List Char) :
    scalar? c text = .ok (none, text) := by
  rcases h with rfl | rfl <;> rfl

/-! ## Values as trees -/

/-- Where nesting is used up, trees are the values without parts. -/
theorem exact_treeOver_none : Exact (treeOver none) SpellsScalar where
  sound := by
    intro text rest v h
    unfold treeOver at h
    rw [next_some_eq_ok_iff rfl] at h
    obtain ⟨gap, c, more, rfl, hgap, -, h⟩ := h
    obtain ⟨found, between, hfound, h⟩ := then_eq_ok_iff.mp h
    rcases scalar?_sound hfound with ⟨w, used, rfl, heq, hused⟩ | ⟨rfl, -, -⟩
    · obtain ⟨rfl, rfl⟩ := pure_eq_ok_iff.mp h
      exact ⟨gap, used, by rw [heq], hgap, hused⟩
    · exact absurd h fail_ne_ok
  complete := by
    intro gap used rest v hgap hused hrest
    obtain ⟨c, more, rfl, hc, -⟩ := (isScalar_of_spellsScalar hused).startsItem
    unfold treeOver
    rw [next_some_eq_ok_iff rfl]
    exact ⟨gap, c, more ++ rest, rfl, hgap, hc,
      then_eq_ok_iff.mpr ⟨some v, rest, scalar?_complete hused hrest, rfl⟩⟩
  starts := fun h => (isScalar_of_spellsScalar h).startsItem

/-- A value whose parts are of a grammar. -/
def SpellsOver (G : Value → List Char → Prop) (v : Value) (used : List Char) : Prop :=
  SpellsScalar v used ∨ (∃ items, v = .list items ∧ ListText G items used) ∨
    ∃ entries, v = .object entries ∧ ObjectText StringText G entries used

/-- A value whose parts are of a grammar starts an item. -/
theorem SpellsOver.startsItem {G : Value → List Char → Prop} {v : Value} {used : List Char}
    (h : SpellsOver G v used) : StartsItem used := by
  rcases h with h | ⟨_, -, inner, rfl, -⟩ | ⟨_, -, inner, rfl, -⟩
  · exact (isScalar_of_spellsScalar h).startsItem
  · exact startsItem_cons rfl (by decide) _
  · exact startsItem_cons rfl (by decide) _

/-- Trees over an exact reader of parts are exact for the grammar over that of the parts. -/
theorem Exact.treeOver {nested : Reader Value} {G : Value → List Char → Prop} (h : Exact nested G) :
    Exact (treeOver (some nested)) (SpellsOver G) where
  sound := by
    intro text rest v hrun
    unfold Reader.treeOver at hrun
    rw [next_some_eq_ok_iff rfl] at hrun
    obtain ⟨gap, c, more, rfl, hgap, -, hrun⟩ := hrun
    obtain ⟨found, between, hfound, hparts⟩ := then_eq_ok_iff.mp hrun
    rcases scalar?_sound hfound with ⟨w, used, rfl, heq, hused⟩ | ⟨rfl, hc, rfl⟩
    · obtain ⟨rfl, rfl⟩ := pure_eq_ok_iff.mp hparts
      exact ⟨gap, used, by rw [heq], hgap, .inl hused⟩
    · dsimp only at hparts
      rw [advance_then] at hparts
      split at hparts
      · next hlist =>
        obtain ⟨xs, after, hitems, hpure⟩ := then_eq_ok_iff.mp hparts
        obtain ⟨rfl, rfl⟩ := pure_eq_ok_iff.mp hpure
        obtain ⟨inner, rfl, hseq⟩ := h.items_eq_ok_iff.mp hitems
        exact ⟨gap, '[' :: inner ++ [']'], by simp [hlist], hgap, .inr (.inl ⟨xs, rfl, inner, rfl, hseq⟩)⟩
      · next hlist =>
        obtain ⟨es, after, hentries, hpure⟩ := then_eq_ok_iff.mp hparts
        obtain ⟨rfl, rfl⟩ := pure_eq_ok_iff.mp hpure
        obtain ⟨inner, rfl, hseq⟩ := h.entries_eq_ok_iff.mp hentries
        exact ⟨gap, '\x7b' :: inner ++ ['\x7d'], by simp [hc.resolve_left hlist], hgap,
          .inr (.inr ⟨es, rfl, inner, rfl, hseq⟩)⟩
  complete := by
    intro gap used rest v hgap hused hrest
    unfold Reader.treeOver
    rw [next_some_eq_ok_iff rfl]
    obtain ⟨c, more, rfl, hc, -⟩ := hused.startsItem
    refine ⟨gap, c, more ++ rest, rfl, hgap, hc, ?_⟩
    rcases hused with hused | ⟨xs, rfl, inner, heq, hseq⟩ | ⟨es, rfl, inner, heq, hseq⟩
    · exact then_eq_ok_iff.mpr ⟨some v, rest, scalar?_complete hused hrest, rfl⟩
    · obtain ⟨rfl, rfl⟩ := List.cons.inj heq
      refine then_eq_ok_iff.mpr ⟨none, _, scalar?_bracket (.inl rfl) _, ?_⟩
      have hitems : items nested (inner ++ [']'] ++ rest) = .ok (xs, rest) :=
        h.items_eq_ok_iff.mpr ⟨inner, by simp, hseq⟩
      exact then_eq_ok_iff.mpr ⟨(), _, rfl, then_eq_ok_iff.mpr ⟨xs, rest, hitems, rfl⟩⟩
    · obtain ⟨rfl, rfl⟩ := List.cons.inj heq
      refine then_eq_ok_iff.mpr ⟨none, _, scalar?_bracket (.inr rfl) _, ?_⟩
      have hentries : entries nested (inner ++ ['\x7d'] ++ rest) = .ok (es, rest) :=
        h.entries_eq_ok_iff.mpr ⟨inner, by simp, hseq⟩
      exact then_eq_ok_iff.mpr ⟨(), _, rfl, then_eq_ok_iff.mpr ⟨es, rest, hentries, rfl⟩⟩
  starts := SpellsOver.startsItem

/-- Trees are exact for what texts spell, on each number of levels. -/
theorem exact_tree (levels : Nat) : Exact (tree levels) (Spells levels) := by
  induction levels with
  | zero => exact exact_treeOver_none
  | succ levels ih => exact ih.treeOver

/-! ## Values that nobody asks for -/

/-- A value without parts has been passed over, or a list or an object is next. -/
theorem skipScalar_sound {c : Char} {parts : Bool} (h : skipScalar c (c :: text) = .ok (parts, rest)) :
    (parts = false ∧ ∃ used, c :: text = used ++ rest ∧ IsScalar used) ∨
      parts = true ∧ (c = '[' ∨ c = '\x7b') ∧ rest = c :: text := by
  unfold skipScalar at h
  split at h
  · next hnumber =>
    refine .inl ?_
    by_cases hc : c = '-'
    · subst hc
      obtain ⟨after, hskip, heq⟩ := map_eq_ok.mp (show (skipNumberFrom text).map _ = _ from h)
      obtain ⟨rfl, rfl⟩ := Prod.mk.inj heq
      obtain ⟨used, rfl, hliteral⟩ := skipNumberFrom_eq_ok_iff.mp hskip
      exact ⟨rfl, '-' :: used, rfl, .number (.negative hliteral.isUnsigned)⟩
    · rw [if_neg hc] at h
      obtain ⟨after, hskip, heq⟩ := map_eq_ok.mp (show (skipNumberFrom (c :: text)).map _ = _ from h)
      obtain ⟨rfl, rfl⟩ := Prod.mk.inj heq
      obtain ⟨used, hused, hliteral⟩ := skipNumberFrom_eq_ok_iff.mp hskip
      exact ⟨rfl, used, hused, .number (.positive hliteral.isUnsigned)⟩
  split at h
  · next hc =>
    subst hc
    rw [advance_then] at h
    obtain ⟨⟨⟩, between, hskip, hpure⟩ := then_eq_ok_iff.mp h
    obtain ⟨rfl, rfl⟩ := pure_eq_ok_iff.mp hpure
    obtain ⟨used, hused, hstring⟩ := skipString_eq_ok_iff.mp hskip
    exact .inl ⟨rfl, used, hused, .string hstring⟩
  · obtain ⟨found, between, hfound, hpure⟩ := then_eq_ok_iff.mp h
    obtain ⟨rfl, rfl⟩ := pure_eq_ok_iff.mp hpure
    rcases scalar?_sound hfound with ⟨v, used, rfl, hused, hv⟩ | ⟨rfl, hc, rfl⟩
    · exact .inl ⟨rfl, used, hused, isScalar_of_spellsScalar hv⟩
    · exact .inr ⟨rfl, hc, rfl⟩

/-- A value without parts is passed over wherever it cannot go on. -/
theorem skipScalar_complete {c : Char} {more : List Char} (h : IsScalar (c :: more))
    (hrest : Delimited rest) : skipScalar c (c :: more ++ rest) = .ok (false, rest) := by
  generalize hused : c :: more = used at h
  unfold skipScalar
  cases h with
  | null =>
    obtain ⟨rfl, rfl⟩ := List.cons.inj hused
    exact then_eq_ok_iff.mpr ⟨some .null, rest, scalar?_complete .null hrest, rfl⟩
  | yes =>
    obtain ⟨rfl, rfl⟩ := List.cons.inj hused
    exact then_eq_ok_iff.mpr ⟨some (.boolean true), rest, scalar?_complete .yes hrest, rfl⟩
  | no =>
    obtain ⟨rfl, rfl⟩ := List.cons.inj hused
    exact then_eq_ok_iff.mpr ⟨some (.boolean false), rest, scalar?_complete .no hrest, rfl⟩
  | number hnumber =>
    cases hnumber with
    | positive h =>
      obtain ⟨d, more', rfl, hd⟩ := h.starts
      obtain ⟨rfl, rfl⟩ := List.cons.inj hused
      rw [if_pos (by simp [hd]), if_neg (ne_of_isDigit hd rfl)]
      exact map_eq_ok.mpr ⟨rest, skipNumberFrom_eq_ok_iff.mpr ⟨_, rfl, hrest.literal h⟩, rfl⟩
    | negative h =>
      obtain ⟨rfl, rfl⟩ := List.cons.inj hused
      exact map_eq_ok.mpr ⟨rest, skipNumberFrom_eq_ok_iff.mpr ⟨_, rfl, hrest.literal h⟩, rfl⟩
  | string hstring =>
    obtain rfl : c = '"' := by
      obtain ⟨body, -, rfl⟩ := hstring
      exact (List.cons.inj hused).1
    subst hused
    exact then_eq_ok_iff.mpr ⟨(), _, rfl,
      then_eq_ok_iff.mpr ⟨(), rest, skipString_eq_ok_iff.mpr ⟨_, rfl, hstring⟩, rfl⟩⟩

theorem skipScalar_bracket {c : Char} (h : c = '[' ∨ c = '\x7b') (text : List Char) :
    skipScalar c text = .ok (true, text) := by
  rcases h with rfl | rfl <;> rfl

variable {nested : Reader Unit} {G : Unit → List Char → Prop}

/-- Passing over the items of a list is a round for each of them. Nothing is gathered but whether the
next item is the first. -/
theorem Exact.skipToItem_rounds (h : Exact nested G) :
    Rounds (fun first => do
      if ← skipToItem first then
        nested
        return some false
      else return none) id G (fun _ _ next => next = false) ']' [] where
  sound := by
    intro first next text rest hrun
    obtain ⟨between, hmore, hskip⟩ := guarded_eq_some_iff.mp hrun
    obtain ⟨gap, rfl, hgap, hstarts⟩ := skipToItem_eq_true_iff.mp hmore
    obtain ⟨⟨⟩, after, hnested, hnext⟩ := then_eq_ok_iff.mp hskip
    obtain ⟨hpush, rfl⟩ := pure_eq_ok_iff.mp hnext
    obtain ⟨gap', used, rfl, hgap', hused⟩ := h.sound hnested
    cases first with
    | true =>
      obtain rfl := (hstarts rfl).gap_eq_nil hgap'
      exact ⟨(), gap, used, rfl, .first hgap, hused, (Option.some.inj hpush).symm⟩
    | false =>
      exact ⟨(), gap ++ ',' :: gap', used, by simp, .next hgap hgap', hused, (Option.some.inj hpush).symm⟩
  complete := by
    intro first next x lead used rest hlead hused hpush hrest
    obtain ⟨gap, gap', hmore, hgap'⟩ : ∃ gap gap', skipToItem first (lead ++ (used ++ rest))
        = .ok (true, gap' ++ (used ++ rest)) ∧ IsGap gap' := by
      cases hlead with
      | first hgap =>
        refine ⟨lead, [], skipToItem_eq_true_iff.mpr ⟨lead, rfl, hgap, fun _ => ?_⟩, isGap_nil⟩
        exact (h.starts hused).append rest
      | @next gap gap' hgap hgap' =>
        exact ⟨gap, gap', skipToItem_eq_true_iff.mpr ⟨gap, by simp, hgap, nofun⟩, hgap'⟩
    refine guarded_eq_some_iff.mpr ⟨_, hmore, ?_⟩
    refine then_eq_ok_iff.mpr ⟨(), rest, h.complete hgap' hused hrest, ?_⟩
    exact pure_eq_ok_iff.mpr ⟨congrArg some hpush.symm, rfl⟩
  last := by
    intro first text rest
    refine (guarded_eq_none_iff fun _ => then_some_ne_none).trans (skipToItem_eq_false_iff.trans ?_)
    simp
  next := fun hpush => hpush
  nonempty := fun _ hused => (h.starts hused).ne_nil
  closes := .inl rfl

/-- Passing over the entries of an object is a round for each of them, too. -/
theorem Exact.skipToEntry_rounds (h : Exact nested G) :
    Rounds (fun first => do
      if ← skipToEntry first then
        nested
        return some false
      else return none) id (EntryText (fun _ : Unit => IsString) G) (fun _ _ next => next = false)
      '\x7d' [] where
  sound := by
    intro first next text rest hrun
    obtain ⟨between, hmore, hskip⟩ := guarded_eq_some_iff.mp hrun
    obtain ⟨lead, key, gap, rfl, hlead, hkey, hgap⟩ := skipToEntry_eq_true_iff.mp hmore
    obtain ⟨⟨⟩, after, hnested, hnext⟩ := then_eq_ok_iff.mp hskip
    obtain ⟨hpush, rfl⟩ := pure_eq_ok_iff.mp hnext
    obtain ⟨gap', value, rfl, hgap', hvalue⟩ := h.sound hnested
    refine ⟨((), ()), lead, _, ?_, hlead, ⟨key, gap, gap', value, hkey, hgap, hgap', hvalue, rfl⟩,
      (Option.some.inj hpush).symm⟩
    simp
  complete := by
    intro first next x lead used rest hlead hentry hpush hrest
    obtain ⟨key, gap, gap', value, hkey, hgap, hgap', hvalue, rfl⟩ := hentry
    refine guarded_eq_some_iff.mpr ⟨gap' ++ (value ++ rest), ?_, ?_⟩
    · exact skipToEntry_eq_true_iff.mpr ⟨lead, key, gap, by simp, hlead, hkey, hgap⟩
    · refine then_eq_ok_iff.mpr ⟨(), rest, h.complete hgap' hvalue hrest, ?_⟩
      exact pure_eq_ok_iff.mpr ⟨congrArg some hpush.symm, rfl⟩
  last := by
    intro first text rest
    refine (guarded_eq_none_iff fun _ => then_some_ne_none).trans (skipToEntry_eq_false_iff.trans ?_)
    simp
  next := fun hpush => hpush
  nonempty := fun _ hentry => by
    obtain ⟨key, gap, gap', value, -, -, -, -, rfl⟩ := hentry
    simp
  closes := .inr rfl

/-- A fold that keeps nothing of its items is there for every list of them. -/
theorem exists_folds (xs : List α) (first : Bool) :
    ∃ last, Folds (fun _ _ next => next = false) first xs last := by
  induction xs generalizing first with
  | nil => exact ⟨first, .nil⟩
  | cons x xs ih =>
    obtain ⟨last, hlast⟩ := ih false
    exact ⟨last, .cons rfl hlast⟩

/-- Where nesting is used up, only values without parts are passed over. -/
theorem exact_skipOver_none : Exact (skipOver none) fun _ => IsScalar where
  sound := by
    intro text rest x h
    unfold skipOver at h
    rw [next_some_eq_ok_iff rfl] at h
    obtain ⟨gap, c, more, rfl, hgap, -, h⟩ := h
    obtain ⟨parts, between, hscalar, h⟩ := then_eq_ok_iff.mp h
    rcases skipScalar_sound hscalar with ⟨rfl, used, heq, hused⟩ | ⟨rfl, -, -⟩
    · obtain ⟨-, rfl⟩ := pure_eq_ok_iff.mp h
      exact ⟨gap, used, by rw [heq], hgap, hused⟩
    · rw [if_pos rfl] at h
      exact absurd h fail_ne_ok
  complete := by
    intro gap used rest x hgap hused hrest
    obtain ⟨c, more, rfl, hc, -⟩ := hused.startsItem
    unfold skipOver
    rw [next_some_eq_ok_iff rfl]
    exact ⟨gap, c, more ++ rest, rfl, hgap, hc,
      then_eq_ok_iff.mpr ⟨false, rest, skipScalar_complete hused hrest, rfl⟩⟩
  starts := IsScalar.startsItem

/-- Text of a value whose parts are of a grammar, of which only the syntax counts. -/
def IsJsonOver (G : Unit → List Char → Prop) (used : List Char) : Prop :=
  IsScalar used ∨ (∃ items : List Unit, ListText G items used) ∨
    ∃ entries : List (Unit × Unit), ObjectText (fun _ => IsString) G entries used

/-- A value of which only the syntax counts starts an item. -/
theorem IsJsonOver.startsItem {used : List Char} (h : IsJsonOver G used) : StartsItem used := by
  rcases h with h | ⟨_, inner, rfl, -⟩ | ⟨_, inner, rfl, -⟩
  · exact h.startsItem
  · exact startsItem_cons rfl (by decide) _
  · exact startsItem_cons rfl (by decide) _

/-- Passing over values is exact for their syntax when passing over the parts is. -/
theorem Exact.skipOver (h : Exact nested G) : Exact (skipOver (some nested)) fun _ => IsJsonOver G where
  sound := by
    intro text rest x hrun
    unfold Reader.skipOver at hrun
    rw [next_some_eq_ok_iff rfl] at hrun
    obtain ⟨gap, c, more, rfl, hgap, -, hrun⟩ := hrun
    obtain ⟨parts, between, hscalar, hparts⟩ := then_eq_ok_iff.mp hrun
    rcases skipScalar_sound hscalar with ⟨rfl, used, heq, hused⟩ | ⟨rfl, hc, rfl⟩
    · obtain ⟨-, rfl⟩ := pure_eq_ok_iff.mp hparts
      exact ⟨gap, used, by rw [heq], hgap, .inl hused⟩
    rw [if_pos rfl] at hparts
    dsimp only at hparts
    rw [advance_then] at hparts
    obtain ⟨last, after, hloop, hpure⟩ := then_eq_ok_iff.mp hparts
    obtain ⟨-, rfl⟩ := pure_eq_ok_iff.mp hpure
    by_cases hlist : c = '['
    · rw [if_pos hlist] at hloop
      obtain ⟨xs, inner, _, rfl, rfl, hseq, -⟩ := h.skipToItem_rounds.iterate_eq_ok_iff.mp hloop
      exact ⟨gap, '[' :: inner ++ [']'], by simp [hlist], hgap, .inr (.inl ⟨xs, inner, rfl, hseq⟩)⟩
    · rw [if_neg hlist] at hloop
      obtain ⟨es, inner, _, rfl, rfl, hseq, -⟩ := h.skipToEntry_rounds.iterate_eq_ok_iff.mp hloop
      exact ⟨gap, '\x7b' :: inner ++ ['\x7d'], by simp [hc.resolve_left hlist], hgap,
        .inr (.inr ⟨es, inner, rfl, hseq⟩)⟩
  complete := by
    intro gap used rest x hgap hused hrest
    unfold Reader.skipOver
    rw [next_some_eq_ok_iff rfl]
    obtain ⟨c, more, rfl, hc, -⟩ := hused.startsItem
    refine ⟨gap, c, more ++ rest, rfl, hgap, hc, ?_⟩
    rcases hused with hused | ⟨xs, inner, heq, hseq⟩ | ⟨es, inner, heq, hseq⟩
    · exact then_eq_ok_iff.mpr ⟨false, rest, skipScalar_complete hused hrest, rfl⟩
    · obtain ⟨rfl, rfl⟩ := List.cons.inj heq
      obtain ⟨last, hlast⟩ := exists_folds xs true
      refine then_eq_ok_iff.mpr ⟨true, _, skipScalar_bracket (.inl rfl) _, ?_⟩
      refine then_eq_ok_iff.mpr ⟨(), _, rfl, then_eq_ok_iff.mpr ⟨last, rest, ?_, rfl⟩⟩
      exact h.skipToItem_rounds.iterate_eq_ok_iff.mpr ⟨xs, inner, rest, by simp, rfl, hseq, hlast⟩
    · obtain ⟨rfl, rfl⟩ := List.cons.inj heq
      obtain ⟨last, hlast⟩ := exists_folds es true
      refine then_eq_ok_iff.mpr ⟨true, _, skipScalar_bracket (.inr rfl) _, ?_⟩
      refine then_eq_ok_iff.mpr ⟨(), _, rfl, then_eq_ok_iff.mpr ⟨last, rest, ?_, rfl⟩⟩
      exact h.skipToEntry_rounds.iterate_eq_ok_iff.mpr ⟨es, inner, rest, by simp, rfl, hseq, hlast⟩
  starts := IsJsonOver.startsItem

theorem exact_skipLevels (levels : Nat) : Exact (skipLevels levels) fun _ => IsJsonWithin levels := by
  induction levels with
  | zero => exact exact_skipOver_none
  | succ levels ih => exact ih.skipOver

/-- A value is passed over exactly when it is nested no deeper than the reader goes. -/
theorem exact_skipValue : Exact skipValue fun _ => IsJson where
  sound := by
    intro text rest x h
    obtain ⟨gap, used, htext, hgap, hused⟩ := (exact_skipLevels text.length).sound h
    exact ⟨gap, used, htext, hgap, text.length, hused⟩
  complete := by
    intro gap used rest x hgap hused hrest
    obtain ⟨levels, hlevels⟩ := hused
    -- As many levels are allowed as the whole text has characters, and the value is a part of it.
    refine (exact_skipLevels _).complete hgap (hlevels.of_length ?_) hrest
    simp only [List.length_append]
    omega
  starts := IsJson.startsItem

/-! ## Values of a wanted form -/

/-- A value of another form is never accepted. -/
theorem wrongType_ne_ok {expected : String} {a : α} :
    ¬ (wrongType expected : Reader α) text = .ok (a, rest) := by
  intro h
  obtain ⟨_, _, -, h⟩ := then_eq_ok_iff.mp h
  exact fail_ne_ok h

/-- A string starts an item. -/
theorem StringText.startsItem {s : String} {used : List Char} (h : StringText s used) :
    StartsItem used := by
  obtain ⟨body, -, rfl⟩ := h
  exact startsItem_cons rfl (by decide) _

/-- The reader of strings is exact for the texts of strings. -/
theorem exact_string : Exact string StringText where
  sound := by
    intro text rest s h
    unfold string at h
    rw [next_some_eq_ok_iff rfl] at h
    obtain ⟨gap, c, more, rfl, hgap, -, h⟩ := h
    dsimp only at h
    split at h
    · next hc =>
      subst hc
      rw [advance_then] at h
      obtain ⟨used, hused, hs⟩ := stringBody_eq_ok_iff.mp h
      exact ⟨gap, used, by rw [hused], hgap, hs⟩
    · exact absurd h wrongType_ne_ok
  complete := by
    intro gap used rest s hgap hs hrest
    unfold string
    rw [next_some_eq_ok_iff rfl]
    obtain ⟨body, hbody, rfl⟩ := hs
    refine ⟨gap, '"', body ++ ['"'] ++ rest, by simp, hgap, rfl, ?_⟩
    exact stringBody_eq_ok_iff.mpr ⟨_, rfl, body, hbody, rfl⟩
  starts := StringText.startsItem

/-- The reader of truth values is exact for the two words. -/
theorem exact_boolean : Exact boolean BooleanText where
  sound := by
    intro text rest b h
    unfold boolean at h
    rw [next_some_eq_ok_iff rfl] at h
    obtain ⟨gap, c, more, rfl, hgap, -, h⟩ := h
    dsimp only at h
    split at h
    · next hc =>
      subst hc
      obtain ⟨rfl, rfl⟩ := advance_word_eq_ok_iff.mp h
      exact ⟨gap, _, rfl, hgap, .yes⟩
    split at h
    · next hc =>
      subst hc
      obtain ⟨rfl, rfl⟩ := advance_word_eq_ok_iff.mp h
      exact ⟨gap, _, rfl, hgap, .no⟩
    · exact absurd h wrongType_ne_ok
  complete := by
    intro gap used rest b hgap hb hrest
    unfold boolean
    rw [next_some_eq_ok_iff rfl]
    cases hb with
    | yes => exact ⟨gap, 't', _, rfl, hgap, rfl, advance_word_eq_ok_iff.mpr ⟨rfl, rfl⟩⟩
    | no => exact ⟨gap, 'f', _, rfl, hgap, rfl, advance_word_eq_ok_iff.mpr ⟨rfl, rfl⟩⟩
  starts := fun hb => (isScalar_of_spellsScalar hb).startsItem

/-- An optional value is one of the wanted form or `null`, when no text of that form starts like `null`. -/
theorem Exact.optional {item : Reader α} {G : α → List Char → Prop} (h : Exact item G)
    (hn : ∀ {a used}, G a used → used.head? ≠ some 'n') : Exact (optional item) (OrNull IsNull G) where
  sound := by
    intro text rest x hrun
    unfold Reader.optional at hrun
    rw [next_eq_ok_iff] at hrun
    rcases hrun with ⟨hgap, hrun⟩ | ⟨gap, c, more, rfl, hgap, -, hrun⟩
    · -- An item cannot be read from nothing.
      rw [if_neg (by simp)] at hrun
      obtain ⟨a, between, hitem, -⟩ := then_eq_ok_iff.mp hrun
      obtain ⟨gap, used, hnil, -, ha⟩ := h.sound hitem
      obtain ⟨-, hnil⟩ := List.append_eq_nil_iff.mp hnil.symm
      exact absurd (List.append_eq_nil_iff.mp hnil).1 (h.starts ha).ne_nil
    · split at hrun
      · next hc =>
        obtain rfl := Option.some.inj hc
        obtain ⟨rfl, rfl⟩ := advance_word_eq_ok_iff.mp hrun
        exact ⟨gap, _, rfl, hgap, .null .null⟩
      · obtain ⟨a, between, hitem, hpure⟩ := then_eq_ok_iff.mp hrun
        obtain ⟨rfl, rfl⟩ := pure_eq_ok_iff.mp hpure
        obtain ⟨gap', used, heq, hgap', ha⟩ := h.sound hitem
        exact ⟨gap ++ gap', used, by rw [heq, List.append_assoc], hgap.append hgap', .some ha⟩
  complete := by
    intro gap used rest x hgap hx hrest
    unfold Reader.optional
    rw [next_eq_ok_iff]
    refine .inr ?_
    cases hx with
    | null hnull =>
      cases hnull
      exact ⟨gap, 'n', _, rfl, hgap, rfl, advance_word_eq_ok_iff.mpr ⟨rfl, rfl⟩⟩
    | @some a _ ha =>
      obtain ⟨c, more, rfl, hc, -⟩ := h.starts ha
      refine ⟨gap, c, more ++ rest, rfl, hgap, hc, ?_⟩
      have hfirst : some c ≠ some 'n' := hn ha
      rw [if_neg hfirst]
      exact then_eq_ok_iff.mpr ⟨a, rest, h.complete isGap_nil ha hrest, rfl⟩
  starts := by
    intro used x hx
    cases hx with
    | null hnull => exact (isScalar_of_spellsScalar hnull).startsItem
    | some hx => exact h.starts hx

/-- What is made of a result without reading on. -/
theorem Exact.map {r : Reader α} {G : α → List Char → Prop} (h : Exact r G) (f : α → β) :
    Exact (r >>= fun x => pure (f x)) fun y used => ∃ x, G x used ∧ y = f x where
  sound := by
    intro text rest y hrun
    obtain ⟨x, between, hx, hpure⟩ := then_eq_ok_iff.mp hrun
    obtain ⟨rfl, rfl⟩ := pure_eq_ok_iff.mp hpure
    obtain ⟨gap, used, htext, hgap, hused⟩ := h.sound hx
    exact ⟨gap, used, htext, hgap, x, hused, rfl⟩
  complete := by
    rintro gap used rest _ hgap ⟨x, hx, rfl⟩ hrest
    exact then_eq_ok_iff.mpr ⟨x, rest, h.complete hgap hx hrest, rfl⟩
  starts := by
    rintro used _ ⟨x, hx, -⟩
    exact h.starts hx

/-! ## Texts of one value -/

/-- An exact reader gives a text no two readings. -/
theorem Exact.unique {r : Reader α} {G : α → List Char → Prop} (h : Exact r G) {x y : α}
    {used : List Char} (hx : G x used) (hy : G y used) : x = y := by
  have hx' := h.complete isGap_nil hx delimited_nil
  have hy' := h.complete isGap_nil hy delimited_nil
  exact (Prod.mk.inj (Except.ok.inj (hx'.symm.trans hy'))).1

/-- Takes a value as it is written. -/
def written : Reader (List Char) := fun text =>
  (skipValue text).map fun (_, rest) =>
    ((text.dropWhile isSpace).take ((text.dropWhile isSpace).length - rest.length), rest)

/-- What lies between the white space in front and the rest is the text of the value. -/
theorem take_dropWhile {gap used : List Char} (hgap : IsGap gap) (hused : IsJson used) :
    ((gap ++ (used ++ rest)).dropWhile isSpace).take
      (((gap ++ (used ++ rest)).dropWhile isSpace).length - rest.length) = used := by
  obtain ⟨c, more, rfl, hc, -⟩ := hused.startsItem
  rw [hgap.dropWhile_append, List.cons_append, dropWhile_cons hc, ← List.cons_append,
    List.length_append, Nat.add_sub_cancel, List.take_left]

/-- Taking a value as it is written is exact for the texts that are values. -/
theorem exact_written : Exact written Written where
  sound := by
    intro text rest raw h
    obtain ⟨⟨⟨⟩, after⟩, hskip, heq⟩ := map_eq_ok.mp h
    obtain ⟨rfl, rfl⟩ := Prod.mk.inj heq
    obtain ⟨gap, used, rfl, hgap, hused⟩ := exact_skipValue.sound hskip
    exact ⟨gap, used, rfl, hgap, take_dropWhile hgap hused, hused⟩
  complete := by
    rintro gap used rest _ hgap ⟨rfl, hused⟩ hrest
    refine map_eq_ok.mpr ⟨((), rest), exact_skipValue.complete hgap hused hrest, ?_⟩
    exact congrArg (·, rest) (take_dropWhile hgap hused)
  starts := fun h => h.2.startsItem

/-- A text is read as a whole when only white space is behind its value. -/
theorem whole_eq_ok_iff {item : Reader α} {x : α} :
    whole item text = .ok x ↔ ∃ gap, item text = .ok (x, gap) ∧ IsGap gap := by
  unfold whole
  rw [bind_eq_ok, Prod.exists]
  constructor
  · rintro ⟨y, gap, hitem, h⟩
    dsimp only at h
    split at h
    · next hempty =>
      obtain rfl : y = x := Except.ok.inj h
      exact ⟨gap, hitem, List.dropWhile_eq_nil_iff.mp (List.isEmpty_iff.mp hempty)⟩
    · exact absurd h (by simp [throw, throwThe, MonadExceptOf.throw])
  · rintro ⟨gap, hitem, hgap⟩
    refine ⟨x, gap, hitem, ?_⟩
    dsimp only
    rw [hgap.dropWhile]
    rfl

end Reader

/-- An object has its entries in one way. -/
theorem IsObject.unique {entries entries' : List (String × List Char)} (h : IsObject entries text)
    (h' : IsObject entries' text) : entries = entries' := by
  obtain ⟨gap, _, behind, rfl, hgap, -, inner, rfl, hseq⟩ := h
  obtain ⟨gap', _, behind', heq, hgap', -, inner', rfl, hseq'⟩ := h'
  have htext := congrArg (List.dropWhile isSpace) heq
  rw [hgap.dropWhile_append, hgap'.dropWhile_append] at htext
  have htail : inner ++ '\x7d' :: behind = inner' ++ '\x7d' :: behind' := by simpa [isSpace] using htext
  -- Both are what the one reader makes of the text, which takes the values as they are written.
  have hread : Reader.entries Reader.written (inner ++ '\x7d' :: behind) = .ok (entries, behind) :=
    Reader.exact_written.entries_eq_ok_iff.mpr ⟨inner, rfl, hseq⟩
  have hread' : Reader.entries Reader.written (inner ++ '\x7d' :: behind) = .ok (entries', behind') :=
    Reader.exact_written.entries_eq_ok_iff.mpr ⟨inner', htail, hseq'⟩
  exact (Prod.mk.inj (Except.ok.inj (hread.symm.trans hread'))).1

end QueryModule.Json
