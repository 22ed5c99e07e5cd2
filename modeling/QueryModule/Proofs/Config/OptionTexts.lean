import QueryModule.Proofs.Config.AlikeEntries

/-!
# Configurations as texts

The reader of a configuration takes the entries of an object one after the other, and what it makes of them
is what they have as a whole. So its results can be said without it (`ofText_eq_ok_iff`).

> `ofText_exact`: options are read from an object with these options and from nothing else, but for lists;
> and from texts whose entries are alike the same options are read.

Lists are not meant to be read: where an object is wanted, its values can be given without keys, and their
places decide to which options they belong (`ofText_ofList`).
-/

namespace QueryModule.Config

open QueryModule.Json
open QueryModule.Json.Reader

variable {text rest : List Char} {o o' : Options}

/-! ## Values of options -/

/-- Only `null` starts like `null`. -/
theorem null_of_head {levels : Nat} {v : Value} (h : Spells levels v text)
    (hhead : text.head? = some 'n') : v = .null := by
  have hscalar : SpellsScalar v text → v = .null := by
    intro h
    cases h with
    | null => rfl
    | yes => exact absurd hhead (by simp)
    | no => exact absurd hhead (by simp)
    | number hnumber =>
      obtain ⟨c, more, rfl, hc⟩ := (isNumber_of_numberText hnumber).starts
      obtain rfl := Option.some.inj hhead
      exact absurd hc (by decide)
    | string hstring =>
      obtain ⟨body, -, rfl⟩ := hstring
      exact absurd hhead (by simp)
  cases levels with
  | zero => exact hscalar h
  | succ levels =>
    rcases h with h | ⟨_, -, inner, rfl, -⟩ | ⟨_, -, inner, rfl, -⟩
    · exact hscalar h
    · exact absurd hhead (by simp)
    · exact absurd hhead (by simp)

/-- The reader of conventions is exact for their texts. -/
theorem exact_readConvention : Exact readConvention (ConventionText true) where
  sound := by
    intro text rest c h
    obtain ⟨v, between, htree, hjudged⟩ := then_eq_ok_iff.mp h
    obtain ⟨gap, used, rfl, hgap, hv⟩ := (exact_tree _).sound htree
    cases hc : Convention.ofJson? v with
    | none =>
      rw [hc] at hjudged
      exact absurd hjudged fail_ne_ok
    | some c' =>
      rw [hc] at hjudged
      obtain ⟨rfl, rfl⟩ := pure_eq_ok_iff.mp hjudged
      exact ⟨gap, used, rfl, hgap, v, hv, ofJson?_eq_some_iff.mp hc⟩
  complete := by
    rintro gap used rest c hgap ⟨v, hv, hc⟩ hrest
    refine then_eq_ok_iff.mpr ⟨v, rest, (exact_tree _).complete hgap hv hrest, ?_⟩
    rw [ofJson?_eq_some_iff.mpr hc]
    rfl
  starts := by
    rintro used c ⟨v, hv, -⟩
    exact (exact_tree _).starts hv

/-- The text of a convention does not start like `null`. -/
theorem ConventionText.head_ne {lists : Bool} {c : Convention} (h : ConventionText lists c text) :
    text.head? ≠ some 'n' := by
  obtain ⟨v, hv, hdescribes⟩ := h
  intro hhead
  obtain rfl := null_of_head hv hhead
  cases hdescribes

/-- An optional string is a string or `null`. -/
theorem exact_optionalString : Exact (Reader.optional string) (OrNull IsNull StringText) := by
  refine exact_string.optional fun hs hhead => ?_
  obtain ⟨body, -, rfl⟩ := hs
  exact absurd hhead (by simp)

/-- An optional truth value is one of the two words or `null`. -/
theorem exact_optionalBoolean : Exact (Reader.optional boolean) (OrNull IsNull BooleanText) := by
  refine exact_boolean.optional fun hb hhead => ?_
  exact absurd (@null_of_head _ 0 _ hb hhead) (by simp)

/-- The reader of an option is exact for the texts of its form, and sets it. -/
theorem exact_readOption (k : OptionKey) (o : Options) : Exact (readOption k o) fun o' used =>
    ∃ x, OrNull IsNull (k.IsText true) x used ∧ o' = o.set k x := by
  cases k with
  | namingConvention => exact (exact_readConvention.optional ConventionText.head_ne).map _
  | transformUnderscore => exact exact_optionalBoolean.map _
  | fragmentPrefix => exact exact_optionalString.map _
  | fragmentSuffix => exact exact_optionalString.map _
  | moduleName => exact exact_optionalString.map _
  | namePrefix => exact exact_optionalString.map _
  | nameSuffix => exact exact_optionalString.map _

/-- What an option is given by is a text of a value. -/
theorem isJson_of_orNull {k : OptionKey} {x : Option k.Content} (h : OrNull IsNull (k.IsText true) x text) :
    IsJson text := by
  cases h with
  | null hnull => exact isJson_of_scalar hnull
  | some hx =>
    cases k with
    | namingConvention =>
      obtain ⟨v, hv, -⟩ := hx
      exact isJson_of_spells hv
    | transformUnderscore => exact isJson_of_scalar hx
    | _ => exact isJson_of_scalar (.string hx)

/-! ## Objects -/

/-- What is read behind a key is a colon and a value, and has been done to the options as entries do. -/
theorem readBehindKey_sound {p q : ObjectProgress} {key : String}
    (h : readBehindKey key p text = .ok (q, rest)) :
    ∃ gap gap' value, text = gap ++ ':' :: (gap' ++ (value ++ rest)) ∧ IsGap gap ∧ IsGap gap' ∧
      IsJson value ∧ Takes p (key, value) q := by
  unfold readBehindKey at h
  cases hk : OptionKey.ofText? key with
  | some k =>
    rw [hk] at h
    dsimp only at h
    split at h
    · -- The key has been there before.
      obtain ⟨_, _, hfail, -⟩ := then_eq_ok_iff.mp h
      exact absurd hfail fail_ne_ok
    next hseen =>
    obtain ⟨⟨⟩, after, hcolon, hvalue⟩ := then_eq_ok_iff.mp h
    obtain ⟨o, after', hoption, hnext⟩ := then_eq_ok_iff.mp hvalue
    obtain ⟨rfl, rfl⟩ := pure_eq_ok_iff.mp hnext
    obtain ⟨gap, rfl, hgap⟩ := colon_eq_ok_iff.mp hcolon
    obtain ⟨gap', value, rfl, hgap', x, hx, rfl⟩ := (exact_readOption k p.options).sound hoption
    obtain rfl := OptionKey.text_of_ofText? hk
    exact ⟨gap, gap', value, rfl, hgap, hgap', isJson_of_orNull hx, .known (by simpa using hseen) hx⟩
  | none =>
    rw [hk] at h
    obtain ⟨⟨⟩, after, hcolon, hvalue⟩ := then_eq_ok_iff.mp h
    obtain ⟨⟨⟩, after', hskip, hnext⟩ := then_eq_ok_iff.mp hvalue
    obtain ⟨rfl, rfl⟩ := pure_eq_ok_iff.mp hnext
    obtain ⟨gap, rfl, hgap⟩ := colon_eq_ok_iff.mp hcolon
    obtain ⟨gap', value, rfl, hgap', hjson⟩ := exact_skipValue.sound hskip
    exact ⟨gap, gap', value, rfl, hgap, hgap', hjson, .unknown hk⟩

/-- Behind a key, every colon and value with an effect is read. -/
theorem readBehindKey_complete {p q : ObjectProgress} {key : String} {gap gap' value : List Char}
    (hgap : IsGap gap) (hgap' : IsGap gap') (hjson : IsJson value) (htakes : Takes p (key, value) q)
    (hrest : Delimited rest) :
    readBehindKey key p (gap ++ ':' :: (gap' ++ (value ++ rest))) = .ok (q, rest) := by
  have hcolon : colon (gap ++ ':' :: (gap' ++ (value ++ rest))) = .ok ((), gap' ++ (value ++ rest)) :=
    colon_eq_ok_iff.mpr ⟨gap, rfl, hgap⟩
  unfold readBehindKey
  cases htakes with
  | @known k x _ hseen hx =>
    rw [k.ofText?_text]
    dsimp only
    rw [if_neg (by simpa using hseen)]
    refine then_eq_ok_iff.mpr ⟨(), _, hcolon, ?_⟩
    exact then_eq_ok_iff.mpr ⟨p.options.set k x, rest,
      (exact_readOption k p.options).complete hgap' ⟨x, hx, rfl⟩ hrest, rfl⟩
  | unknown hk =>
    rw [hk]
    refine then_eq_ok_iff.mpr ⟨(), _, hcolon, ?_⟩
    exact then_eq_ok_iff.mpr ⟨(), rest, exact_skipValue.complete hgap' hjson hrest, rfl⟩

/-- A round over the entries of the options takes one, with the effect that it has. -/
theorem readEntry_rounds :
    Rounds readEntry ObjectProgress.first (EntryText StringText Written) Takes '\x7d' ['\x7d'] := by
  refine keyed_rounds (fun _ => rfl) (fun hrun => ?_)
    (fun hgap hgap' hwritten htakes hrest => ?_) fun htakes => ?_
  · obtain ⟨q, after, hvalue, hnext⟩ := then_eq_ok_iff.mp hrun
    obtain ⟨hfound, rfl⟩ := pure_eq_ok_iff.mp hnext
    obtain ⟨gap, gap', value, rfl, hgap, hgap', hjson, htakes⟩ := readBehindKey_sound hvalue
    exact ⟨gap, gap', value, value, q, rfl, hgap, hgap', ⟨rfl, hjson⟩, htakes, hfound.symm⟩
  · obtain ⟨rfl, hjson⟩ := hwritten
    exact then_eq_ok_iff.mpr ⟨_, _, readBehindKey_complete hgap hgap' hjson htakes hrest, rfl⟩
  · cases htakes <;> rfl

/-- The options in an object, behind its opening brace. -/
theorem readObject_eq_ok_iff :
    (do
      let progress ← iterate readEntry ⟨{}, [], true⟩
      closeObject
      return progress.options) text = .ok (o, rest) ↔
      ∃ entries inner, text = inner ++ '\x7d' :: rest ∧
        Sequence (EntryText StringText Written) true entries inner ∧ o.Has true entries := by
  rw [then_eq_ok_iff]
  constructor
  · rintro ⟨progress, between, hread, hrun⟩
    obtain ⟨entries, inner, more, rfl, rfl, hseq, hfolds⟩ := readEntry_rounds.iterate_eq_ok_iff.mp hread
    obtain ⟨rfl, rfl⟩ : progress.options = o ∧ more = rest := pure_eq_ok_iff.mp hrun
    exact ⟨entries, inner, rfl, hseq, has_iff_folds.mpr ⟨progress, hfolds, rfl⟩⟩
  · rintro ⟨entries, inner, rfl, hseq, hhas⟩
    obtain ⟨progress, hfolds, rfl⟩ := has_iff_folds.mp hhas
    refine ⟨progress, '\x7d' :: rest, readEntry_rounds.iterate_eq_ok_iff.mpr ?_, rfl⟩
    exact ⟨entries, inner, rest, rfl, rfl, hseq, hfolds⟩

/-! ## Lists -/

/-- The entry of a known option sets it, if the option has not been set before. -/
theorem takes_text_iff {p q : ObjectProgress} {k : OptionKey} {value : List Char} :
    Takes p (k.text, value) q ↔ k ∉ p.seen ∧ ∃ x, OrNull IsNull (k.IsText true) x value ∧
      q = ⟨p.options.set k x, k :: p.seen, false⟩ := by
  constructor
  · intro h
    generalize he : (k.text, value) = e at h
    cases h with
    | known hseen hx =>
      obtain ⟨hk, rfl⟩ := Prod.mk.inj he
      obtain rfl := OptionKey.text_injective hk
      exact ⟨hseen, _, hx, rfl⟩
    | unknown hk =>
      obtain ⟨rfl, -⟩ := Prod.mk.inj he
      exact absurd (k.ofText?_text.symm.trans hk) (by simp)
  · rintro ⟨hseen, x, hx, rfl⟩
    exact .known hseen hx

/-- The text is that of values which give options, the first of them to the first of some keys. -/
def ListGives (keys : List OptionKey) (p : ObjectProgress) (first : Bool) (o : Options)
    (inner : List Char) : Prop :=
  ∃ values, Sequence Written first values inner ∧ values.length ≤ keys.length ∧
    ∃ q, Folds Takes p ((keys.map OptionKey.text).zip values) q ∧ q.options = o

/-- Where no option is left the list has to end. -/
theorem listGives_nil_iff {p : ObjectProgress} {first : Bool} {inner : List Char} :
    ListGives [] p first o inner ↔ IsGap inner ∧ p.options = o := by
  constructor
  · rintro ⟨values, hseq, hlength, q, hfolds, ho⟩
    obtain rfl := List.length_eq_zero_iff.mp (Nat.le_zero.mp hlength)
    cases hseq with
    | nil hgap =>
      cases hfolds with
      | nil => exact ⟨hgap, ho⟩
  · rintro ⟨hgap, ho⟩
    exact ⟨[], .nil hgap, Nat.le_refl _, p, .nil, ho⟩

/-- Where one is left the list ends, or gives it its next item. -/
theorem listGives_cons_iff {k : OptionKey} {keys : List OptionKey} {p : ObjectProgress} {first : Bool}
    {inner : List Char} (hseen : k ∉ p.seen) : ListGives (k :: keys) p first o inner ↔
      (IsGap inner ∧ p.options = o) ∨ ∃ lead used x more, inner = lead ++ used ++ more ∧
        Lead first lead ∧ OrNull IsNull (k.IsText true) x used ∧
        ListGives keys ⟨p.options.set k x, k :: p.seen, false⟩ false o more := by
  constructor
  · rintro ⟨values, hseq, hlength, q, hfolds, ho⟩
    cases hseq with
    | nil hgap =>
      cases hfolds with
      | nil => exact .inl ⟨hgap, ho⟩
    | @cons _ value values lead used more hlead hvalue hmore =>
      obtain ⟨rfl, -⟩ := hvalue
      cases hfolds with
      | cons htakes hfolds =>
        obtain ⟨-, x, hx, rfl⟩ := takes_text_iff.mp htakes
        exact .inr ⟨lead, value, x, more, rfl, hlead, hx, values, hmore, Nat.le_of_succ_le_succ hlength,
          q, hfolds, ho⟩
  · rintro (⟨hgap, ho⟩ | ⟨lead, used, x, more, rfl, hlead, hx, values, hmore, hlength, q, hfolds, ho⟩)
    · exact ⟨[], .nil hgap, Nat.zero_le _, p, .nil, ho⟩
    · exact ⟨used :: values, .cons hlead ⟨rfl, isJson_of_orNull hx⟩ hmore, Nat.succ_le_succ hlength, q,
        .cons (takes_text_iff.mpr ⟨hseen, x, hx, rfl⟩) hfolds, ho⟩

/-- What comes behind an item can follow a value. -/
theorem delimited_of_listGives {keys : List OptionKey} {p : ObjectProgress} {inner : List Char}
    (h : ListGives keys p false o inner) (rest : List Char) : Delimited (inner ++ ']' :: rest) := by
  obtain ⟨values, hseq, -⟩ := h
  exact hseq.delimited (delimited_close (.inl rfl) rest)

/-- The closing bracket of a list of options gives them as they are. -/
theorem closeList_then_eq_ok_iff {o' : Options} :
    (closeList >>= fun _ => (pure o' : Reader Options)) text = .ok (o, rest) ↔
      ∃ gap, text = gap ++ ']' :: rest ∧ IsGap gap ∧ o' = o := by
  rw [then_eq_ok_iff]
  constructor
  · rintro ⟨_, between, hclose, hnext⟩
    obtain ⟨ho, rfl⟩ := pure_eq_ok_iff.mp hnext
    obtain ⟨gap, htext, hgap⟩ := closeList_eq_ok_iff.mp hclose
    exact ⟨gap, htext, hgap, ho⟩
  · rintro ⟨gap, rfl, hgap, ho⟩
    exact ⟨(), rest, closeList_eq_ok_iff.mpr ⟨gap, rfl, hgap⟩, pure_eq_ok_iff.mpr ⟨ho, rfl⟩⟩

/-- Options are read in a list for as long as there are values. -/
theorem readValues_eq_ok_iff {keys : List OptionKey} {p : ObjectProgress} {first : Bool}
    (hkeys : keys.Nodup) (hseen : ∀ k ∈ keys, k ∉ p.seen) :
    (readValues first p.options keys >>= fun o => closeList >>= fun _ => pure o) text = .ok (o, rest) ↔
      ∃ inner, text = inner ++ ']' :: rest ∧ ListGives keys p first o inner := by
  induction keys generalizing p first text with
  | nil =>
    simp only [listGives_nil_iff]
    exact closeList_then_eq_ok_iff
  | cons k keys ih =>
    obtain ⟨hk, hkeys⟩ := List.nodup_cons.mp hkeys
    have hunseen := hseen k (List.mem_cons_self ..)
    -- Behind this key the others are still unseen, whatever its value has been.
    have hstep : ∀ x text, (readValues false (p.options.set k x) keys >>= fun o =>
        closeList >>= fun _ => pure o) text = .ok (o, rest) ↔ ∃ inner, text = inner ++ ']' :: rest ∧
          ListGives keys ⟨p.options.set k x, k :: p.seen, false⟩ false o inner := by
      intro x text
      refine @ih text ⟨p.options.set k x, k :: p.seen, false⟩ false hkeys fun k' hk' => ?_
      rw [List.mem_cons, not_or]
      exact ⟨fun h => hk (h ▸ hk'), hseen k' (List.mem_cons_of_mem _ hk')⟩
    simp only [listGives_cons_iff hunseen]
    constructor
    · intro h
      obtain ⟨options, between, hread, hclose⟩ := then_eq_ok_iff.mp h
      obtain ⟨more, after, hmore, hread⟩ := then_eq_ok_iff.mp hread
      cases more with
      | false =>
        obtain ⟨rfl, rfl⟩ := pure_eq_ok_iff.mp hread
        obtain ⟨gap, after, rfl, hgap, rfl⟩ := hasItem_eq_false_iff.mp hmore
        obtain ⟨ho, rfl⟩ : p.options = o ∧ after = rest := pure_eq_ok_iff.mp hclose
        exact ⟨gap, rfl, .inl ⟨hgap, ho⟩⟩
      | true =>
        obtain ⟨o', after', hoption, hvalues⟩ := then_eq_ok_iff.mp hread
        obtain ⟨lead, rfl, hlead, hstarts⟩ := hasItem_eq_true_iff.mp hmore
        obtain ⟨gap, used, rfl, hgap, x, hx, rfl⟩ := (exact_readOption k p.options).sound hoption
        obtain rfl := hstarts.gap_eq_nil hgap
        obtain ⟨inner, rfl, hinner⟩ := (hstep x _).mp (then_eq_ok_iff.mpr ⟨_, _, hvalues, hclose⟩)
        exact ⟨lead ++ used ++ inner, by simp, .inr ⟨lead, used, x, inner, rfl, hlead, hx, hinner⟩⟩
    · rintro ⟨inner, rfl, ⟨hgap, ho⟩ | ⟨lead, used, x, more, rfl, hlead, hx, hgives⟩⟩
      · refine then_eq_ok_iff.mpr ⟨p.options, ']' :: rest, ?_, ?_⟩
        · exact then_eq_ok_iff.mpr ⟨false, _, hasItem_eq_false_iff.mpr ⟨inner, rest, rfl, hgap, rfl⟩, rfl⟩
        · exact closeList_then_eq_ok_iff.mpr ⟨[], rfl, isGap_nil, ho⟩
      · obtain ⟨options, between, hvalues, hclose⟩ :=
          then_eq_ok_iff.mp ((hstep x _).mpr ⟨more, rfl, hgives⟩)
        have hoption := exact_readOption k p.options
        have hread : readOption k p.options (used ++ (more ++ ']' :: rest))
            = .ok (_, more ++ ']' :: rest) :=
          hoption.complete isGap_nil ⟨x, hx, rfl⟩ (delimited_of_listGives hgives rest)
        refine then_eq_ok_iff.mpr ⟨options, between,
          then_eq_ok_iff.mpr ⟨true, used ++ (more ++ ']' :: rest), ?_, ?_⟩, hclose⟩
        · refine hasItem_eq_true_iff.mpr ⟨lead, by simp, hlead, ?_⟩
          exact (hoption.starts ⟨x, hx, rfl⟩).append _
        · exact then_eq_ok_iff.mpr ⟨_, _, hread, hvalues⟩

/-- The keys that the values of a list have. -/
def optionKeys : List String := OptionKey.all.map OptionKey.text

/-- A list gives the options its items are of, which is what entries with the keys in order would give. -/
theorem listGives_iff {inner : List Char} : ListGives OptionKey.all ⟨{}, [], true⟩ true o inner ↔
    ∃ values, Sequence Written true values inner ∧ values.length ≤ optionKeys.length ∧
      o.Has true (optionKeys.zip values) := by
  unfold ListGives optionKeys
  simp only [List.length_map, @has_iff_folds _ _ true]

/-! ## Whole texts -/

/-- Options are read from an object or from a list, behind white space. -/
theorem readOptions_eq_ok_iff : readOptions text = .ok (o, rest) ↔
    ∃ gap used, text = gap ++ (used ++ rest) ∧ IsGap gap ∧
      ((∃ entries, ObjectText StringText Written entries used ∧ o.Has true entries) ∨
        ∃ values, ListText Written values used ∧ values.length ≤ optionKeys.length ∧
          o.Has true (optionKeys.zip values)) := by
  unfold readOptions
  rw [next_some_eq_ok_iff rfl]
  constructor
  · rintro ⟨gap, c, more, rfl, hgap, -, h⟩
    dsimp only at h
    split at h
    · -- An object.
      next hc =>
      rw [advance_then] at h
      obtain ⟨entries, inner, rfl, hseq, hhas⟩ := readObject_eq_ok_iff.mp h
      exact ⟨gap, '\x7b' :: inner ++ ['\x7d'], by simp [hc], hgap, .inl ⟨entries, ⟨inner, rfl, hseq⟩, hhas⟩⟩
    split at h
    · -- A list, which starts with no option set and no key seen.
      next hc =>
      rw [advance_then] at h
      obtain ⟨inner, rfl, hgives⟩ := (@readValues_eq_ok_iff more rest o OptionKey.all ⟨{}, [], true⟩ true
        (by decide) (by simp)).mp h
      obtain ⟨values, hseq, hlength, hhas⟩ := listGives_iff.mp hgives
      exact ⟨gap, '[' :: inner ++ [']'], by simp [hc], hgap,
        .inr ⟨values, ⟨inner, rfl, hseq⟩, hlength, hhas⟩⟩
    · exact absurd h wrongType_ne_ok
  · rintro ⟨gap, used, rfl, hgap, ⟨entries, ⟨inner, rfl, hseq⟩, hhas⟩ |
      ⟨values, ⟨inner, rfl, hseq⟩, hlength, hhas⟩⟩
    · refine ⟨gap, '\x7b', inner ++ ['\x7d'] ++ rest, by simp, hgap, rfl, ?_⟩
      exact readObject_eq_ok_iff.mpr ⟨entries, inner, by simp, hseq, hhas⟩
    · refine ⟨gap, '[', inner ++ [']'] ++ rest, by simp, hgap, rfl, ?_⟩
      refine (@readValues_eq_ok_iff _ rest o OptionKey.all ⟨{}, [], true⟩ true
        (by decide) (by simp)).mpr ⟨inner, by simp, ?_⟩
      exact listGives_iff.mpr ⟨values, hseq, hlength, hhas⟩

/-- A text as a whole gives options by the entries of an object, or by the items of a list in the place
of entries. -/
theorem ofText_eq_ok_iff {text : String} : Options.ofText text = .ok o ↔
    (∃ entries, IsObject entries text.toList ∧ o.Has true entries) ∨
      ∃ values, IsList values text.toList ∧ values.length ≤ optionKeys.length ∧
        o.Has true (optionKeys.zip values) := by
  unfold Options.ofText
  simp only [whole_eq_ok_iff, readOptions_eq_ok_iff]
  constructor
  · rintro ⟨gap', ⟨gap, used, htext, hgap, ⟨entries, hused, hhas⟩ | ⟨values, hused, hhas⟩⟩, hgap'⟩
    · exact .inl ⟨entries, ⟨gap, used, gap', htext, hgap, hgap', hused⟩, hhas⟩
    · exact .inr ⟨values, ⟨gap, used, gap', htext, hgap, hgap', hused⟩, hhas⟩
  · rintro (⟨entries, ⟨gap, used, gap', htext, hgap, hgap', hused⟩, hhas⟩ |
      ⟨values, ⟨gap, used, gap', htext, hgap, hgap', hused⟩, hhas⟩)
    · exact ⟨gap', ⟨gap, used, htext, hgap, .inl ⟨entries, hused, hhas⟩⟩, hgap'⟩
    · exact ⟨gap', ⟨gap, used, htext, hgap, .inr ⟨values, hused, hhas⟩⟩, hgap'⟩

/-- No text is both an object and a list. -/
theorem not_isList_of_isObject {entries : List (String × List Char)} {values : List (List Char)}
    (h : IsObject entries text) : ¬IsList values text := by
  rintro ⟨gap, _, behind, hlist, hgap, -, inner, rfl, -⟩
  obtain ⟨gap', _, behind', hobject, hgap', -, inner', rfl, -⟩ := h
  have hheads := congrArg (List.dropWhile isSpace) (hlist.symm.trans hobject)
  rw [hgap.dropWhile_append, hgap'.dropWhile_append] at hheads
  exact absurd (List.cons.inj hheads).1 (by decide)

/-- What is read from an object is what its entries have. -/
theorem ofText_eq_ok_iff_has {text : String} {entries : List (String × List Char)}
    (h : IsObject entries text.toList) : Options.ofText text = .ok o ↔ o.Has true entries := by
  rw [ofText_eq_ok_iff]
  constructor
  · rintro (⟨entries', h', hhas⟩ | ⟨values, hlist, -⟩)
    · rw [h.unique h']
      exact hhas
    · exact absurd hlist (not_isList_of_isObject h)
  · exact fun hhas => .inl ⟨entries, h, hhas⟩

/-- The text has a list where an object is wanted. -/
def UsesLists (text : List Char) : Prop :=
  (∃ values, IsList values text) ∨ ∃ entries value, IsObject entries text ∧
    (OptionKey.namingConvention.text, value) ∈ entries ∧ value.head? = some '['

/-- Options are read from a text if and only if it is an object whose entries have these options, or a list
of their values. Without lists, the entries are all that counts, and alike ones count the same. -/
theorem ofText_exact (text : String) :
    (∀ o, Options.ofText text = .ok o ↔
      (∃ entries, IsObject entries text.toList ∧ o.Has true entries) ∨
        ∃ values, IsList values text.toList ∧ values.length ≤ optionKeys.length ∧
          o.Has true (optionKeys.zip values)) ∧
    (¬UsesLists text.toList → ∀ o, Options.ofText text = .ok o ↔
      ∃ entries, IsObject entries text.toList ∧ o.Has false entries) ∧
    ∀ (text' : String) (entries entries' : List (String × List Char)), IsObject entries text.toList →
      IsObject entries' text'.toList → Alike entries entries' →
      ∀ o, Options.ofText text = .ok o ↔ Options.ofText text' = .ok o := by
  refine ⟨fun o => ofText_eq_ok_iff, fun hlists o => ?_, fun text' entries entries' h h' halike o => ?_⟩
  · rw [ofText_eq_ok_iff]
    have hno : ∀ {entries}, IsObject entries text.toList → (o.Has true entries ↔ o.Has false entries) :=
      fun h => Options.has_iff_of_no_list fun value hmem hhead => hlists (.inr ⟨_, value, h, hmem, hhead⟩)
    constructor
    · rintro (⟨entries, h, hhas⟩ | ⟨values, hlist, -⟩)
      · exact ⟨entries, h, (hno h).mp hhas⟩
      · exact absurd (.inl ⟨values, hlist⟩) hlists
    · rintro ⟨entries, h, hhas⟩
      exact .inl ⟨entries, h, (hno h).mpr hhas⟩
  · rw [ofText_eq_ok_iff_has h, ofText_eq_ok_iff_has h', Options.has_iff_of_alike halike]

/-- The first value of a list is read as the first option, the prefix of fragments. -/
theorem ofText_ofList : Options.ofText "[\"q_\"]" = .ok { fragmentPrefix := some "q_" } ∧
    ¬∃ entries o, IsObject entries "[\"q_\"]".toList ∧ Options.Has false entries o := by
  have hstring : StringText "q_" ['"', 'q', '_', '"'] := by
    have hplain : IsPlain 'q' ∧ IsPlain '_' :=
      ⟨⟨by decide, by decide, by decide⟩, ⟨by decide, by decide, by decide⟩⟩
    exact ⟨['q', '_'], .plain hplain.1 (.plain hplain.2 .nil), rfl⟩
  have hlist : IsList [['"', 'q', '_', '"']] "[\"q_\"]".toList := by
    refine ⟨[], _, [], (List.append_nil _).symm, isGap_nil, isGap_nil, ['"', 'q', '_', '"'], rfl, ?_⟩
    have hwritten : Written ['"', 'q', '_', '"'] ['"', 'q', '_', '"'] :=
      ⟨rfl, isJson_of_scalar (.string hstring)⟩
    exact .cons (.first isGap_nil) hwritten (.nil isGap_nil)
  constructor
  · refine ofText_eq_ok_iff.mpr (.inr ⟨_, hlist, by decide, ?_⟩)
    exact ⟨.inr ⟨_, rfl, .some hstring⟩, .inl ⟨rfl, rfl⟩, .inl ⟨rfl, rfl⟩, .inl ⟨rfl, rfl⟩,
      .inl ⟨rfl, rfl⟩, .inl ⟨rfl, rfl⟩, .inl ⟨rfl, rfl⟩⟩
  · rintro ⟨entries, o, h, -⟩
    exact not_isList_of_isObject h hlist

end QueryModule.Config
