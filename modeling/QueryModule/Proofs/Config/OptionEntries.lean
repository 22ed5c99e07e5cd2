import QueryModule.Config.Options
import QueryModule.Proofs.Json.Values

/-!
# The entries of a configuration

What entries have to be for options to be read from them, and which options these are, without a reader:
each known key occurs at most once, and has a value of its kind or `null`. This speaks of the entries as a
whole. `Takes` says instead what a single entry does to the options that have been read so far, and entries
that are taken one after the other leave what they have as a whole.

> `has_iff_folds`: entries give the options that come of taking them one after the other.
-/

namespace QueryModule.Config

open QueryModule.Json
open QueryModule.Json.Reader (Folds)

variable {α β : Type} {lists : Bool} {o o' : Options}

/-! ## Entries -/

/-- The entries with a key. -/
def withKey (key : String) (entries : List (String × β)) : List (String × β) :=
  entries.filter (·.1 = key)

/-- The value with a key, which is absent or given once. -/
def Given (Value : Option α → β → Prop) (key : String) (entries : List (String × β))
    (x : Option α) : Prop :=
  (withKey key entries = [] ∧ x = none) ∨ ∃ b, withKey key entries = [(key, b)] ∧ Value x b

/-- The categories of names, as a convention by category calls them. -/
def categoryKeys : List String := ["enumValues", "transformUnderscore", "typeNames"]

/-- A string or `null`. -/
def StringOrNull : Option String → Value → Prop := OrNull (· = .null) fun s v => v = .string s

/-- A truth value or `null`. -/
def BooleanOrNull : Option Bool → Value → Prop := OrNull (· = .null) fun b v => v = .boolean b

/-- What the entries of an object say of a convention by category. -/
structure HasCategories (entries : List (String × Value)) (enumValues : Option String)
    (transformUnderscore : Option Bool) (typeNames : Option String) : Prop where
  enumValues : Given StringOrNull "enumValues" entries enumValues
  transformUnderscore : Given BooleanOrNull "transformUnderscore" entries transformUnderscore
  typeNames : Given StringOrNull "typeNames" entries typeNames

/-- The naming convention that a value describes: a selector, or selectors by category. The latter are
given by an object, or by a list in the order of the keys if lists are allowed. -/
inductive Describes (lists : Bool) : Value → Convention → Prop where
  | selector {text : String} : Describes lists (.string text) (.selector text)
  | object {entries : List (String × Value)} {e t : Option String} {u : Option Bool} :
      HasCategories entries e u t → Describes lists (.object entries) (.perCategory e u t)
  | list {values : List Value} {e t : Option String} {u : Option Bool} : lists = true →
      values.length ≤ categoryKeys.length → HasCategories (categoryKeys.zip values) e u t →
      Describes lists (.list values) (.perCategory e u t)

/-- The text of a naming convention. -/
def ConventionText (lists : Bool) (convention : Convention) (text : List Char) : Prop :=
  ∃ v, Spells (maxNesting - 1) v text ∧ Describes lists v convention

/-- The options that entries give, which have their values as they are written. -/
structure Options.Has (lists : Bool) (entries : List (String × List Char)) (o : Options) : Prop where
  fragmentPrefix : Given (OrNull IsNull StringText) "fragmentPrefix" entries o.fragmentPrefix
  fragmentSuffix : Given (OrNull IsNull StringText) "fragmentSuffix" entries o.fragmentSuffix
  moduleName : Given (OrNull IsNull StringText) "moduleName" entries o.moduleName
  namePrefix : Given (OrNull IsNull StringText) "namePrefix" entries o.namePrefix
  nameSuffix : Given (OrNull IsNull StringText) "nameSuffix" entries o.nameSuffix
  namingConvention :
    Given (OrNull IsNull (ConventionText lists)) "namingConvention" entries o.namingConvention
  transformUnderscore :
    Given (OrNull IsNull BooleanText) "transformUnderscore" entries o.transformUnderscore

/-! ## Options by key -/

/-- The kind of an option. -/
def OptionKey.Content : OptionKey → Type
  | .namingConvention => Convention
  | .transformUnderscore => Bool
  | _ => String

/-- The option with a key. -/
def Options.get (o : Options) : (k : OptionKey) → Option k.Content
  | .fragmentPrefix => o.fragmentPrefix
  | .fragmentSuffix => o.fragmentSuffix
  | .moduleName => o.moduleName
  | .namePrefix => o.namePrefix
  | .nameSuffix => o.nameSuffix
  | .namingConvention => o.namingConvention
  | .transformUnderscore => o.transformUnderscore

/-- The options with another value for a key. -/
def Options.set (o : Options) : (k : OptionKey) → Option k.Content → Options
  | .fragmentPrefix, x => { o with fragmentPrefix := x }
  | .fragmentSuffix, x => { o with fragmentSuffix := x }
  | .moduleName, x => { o with moduleName := x }
  | .namePrefix, x => { o with namePrefix := x }
  | .nameSuffix, x => { o with nameSuffix := x }
  | .namingConvention, x => { o with namingConvention := x }
  | .transformUnderscore, x => { o with transformUnderscore := x }

/-- The text of the option with a key. -/
def OptionKey.IsText (lists : Bool) : (k : OptionKey) → k.Content → List Char → Prop
  | .fragmentPrefix => StringText
  | .fragmentSuffix => StringText
  | .moduleName => StringText
  | .namePrefix => StringText
  | .nameSuffix => StringText
  | .namingConvention => ConventionText lists
  | .transformUnderscore => BooleanText

@[simp] theorem Options.get_set (o : Options) (k : OptionKey) (x : Option k.Content) :
    (o.set k x).get k = x := by
  cases k <;> rfl

/-- Setting one option leaves the others alone. -/
theorem Options.get_set_of_ne {k k' : OptionKey} (h : k' ≠ k) (o : Options) (x : Option k.Content) :
    (o.set k x).get k' = o.get k' := by
  cases k <;> cases k' <;> first | rfl | exact absurd rfl h

/-- Options that agree by each key are equal. -/
theorem Options.ext_get (h : ∀ k, o.get k = o'.get k) : o = o' := by
  cases o
  cases o'
  rw [Options.mk.injEq]
  exact ⟨h .fragmentPrefix, h .fragmentSuffix, h .moduleName, h .namePrefix, h .nameSuffix,
    h .namingConvention, h .transformUnderscore⟩

/-- Entries give options when they give each of them. -/
theorem Options.has_iff {entries : List (String × List Char)} : o.Has lists entries ↔
    ∀ k, Given (OrNull IsNull (k.IsText lists)) k.text entries (o.get k) := by
  constructor
  · rintro ⟨h₁, h₂, h₃, h₄, h₅, h₆, h₇⟩ k
    cases k <;> assumption
  · intro h
    exact ⟨h .fragmentPrefix, h .fragmentSuffix, h .moduleName, h .namePrefix, h .nameSuffix,
      h .namingConvention, h .transformUnderscore⟩

theorem OptionKey.ofText?_text (k : OptionKey) : ofText? k.text = some k := by
  cases k <;> decide

/-- A key finds no option but its own. -/
theorem OptionKey.text_of_ofText? {key : String} {k : OptionKey} (h : ofText? key = some k) :
    key = k.text := by
  have := List.find?_some h
  exact (of_decide_eq_true this).symm

/-- Different options have different keys. -/
theorem OptionKey.text_injective {k k' : OptionKey} (h : k.text = k'.text) : k = k' := by
  have := k.ofText?_text
  rw [h, k'.ofText?_text] at this
  exact (Option.some.inj this).symm

/-! ## Conventions as values -/

/-- An entry of an object is found when it is given at most once and can be read. -/
theorem entry?_eq_some_iff {read : Value → Option (Option α)} {key : String}
    {entries : List (String × Value)} {x : Option α} :
    entry? read key entries = some x ↔ Given (fun x v => read v = some x) key entries x := by
  unfold entry? Given withKey
  cases h : entries.filter (·.1 = key) with
  | nil => simp [eq_comm]
  | cons e more =>
    have hkey : e.1 = key := by
      have := List.mem_filter.mp (h ▸ List.mem_cons_self : e ∈ entries.filter (·.1 = key))
      simpa using this.2
    cases more with
    | nil =>
      obtain ⟨k, v⟩ := e
      obtain rfl : k = key := hkey
      simp
    | cons => simp

/-- A string or `null`, as a reading and as a form. -/
theorem stringOrNull?_eq_some_iff {v : Value} {x : Option String} :
    stringOrNull? v = some x ↔ StringOrNull x v := by
  constructor
  · intro h
    cases v with
    | null => exact Option.some.inj h ▸ .null rfl
    | string s => exact Option.some.inj h ▸ .some rfl
    | _ => exact absurd h (by simp [stringOrNull?])
  · rintro (rfl | rfl) <;> rfl

/-- A truth value or `null`, likewise. -/
theorem booleanOrNull?_eq_some_iff {v : Value} {x : Option Bool} :
    booleanOrNull? v = some x ↔ BooleanOrNull x v := by
  constructor
  · intro h
    cases v with
    | null => exact Option.some.inj h ▸ .null rfl
    | boolean b => exact Option.some.inj h ▸ .some rfl
    | _ => exact absurd h (by simp [booleanOrNull?])
  · rintro (rfl | rfl) <;> rfl

/-- The entries of a map of conventions give its three members, each by its own key. -/
theorem hasCategories_iff {entries : List (String × Value)} {e t : Option String} {u : Option Bool} :
    HasCategories entries e u t ↔ entry? stringOrNull? "enumValues" entries = some e ∧
      entry? booleanOrNull? "transformUnderscore" entries = some u ∧
      entry? stringOrNull? "typeNames" entries = some t := by
  simp only [entry?_eq_some_iff, stringOrNull?_eq_some_iff, booleanOrNull?_eq_some_iff]
  exact ⟨fun ⟨he, hu, ht⟩ => ⟨he, hu, ht⟩, fun ⟨he, hu, ht⟩ => ⟨he, hu, ht⟩⟩

/-- In a list the values have the keys of the categories, in this order. -/
theorem hasCategories_zip_iff {values : List Value} (h : values.length ≤ categoryKeys.length)
    {e t : Option String} {u : Option Bool} : HasCategories (categoryKeys.zip values) e u t ↔
      stringOrNull? (values.getD 0 .null) = some e ∧ booleanOrNull? (values.getD 1 .null) = some u ∧
      stringOrNull? (values.getD 2 .null) = some t := by
  rw [hasCategories_iff]
  match values, h with
  | [], _ => exact Iff.rfl
  | [_], _ => exact Iff.rfl
  | [_, _], _ => exact Iff.rfl
  | [_, _, _], _ => exact Iff.rfl
  | _ :: _ :: _ :: _ :: _, h => exact absurd h (by simp [categoryKeys])

/-- A value is read as a convention exactly when it describes it. -/
theorem ofJson?_eq_some_iff {v : Value} {c : Convention} :
    Convention.ofJson? v = some c ↔ Describes true v c := by
  constructor
  · intro h
    unfold Convention.ofJson? at h
    split at h
    · obtain rfl := Option.some.inj h
      exact .selector
    · obtain ⟨e, he, h⟩ := Option.bind_eq_some_iff.mp h
      obtain ⟨u, hu, h⟩ := Option.bind_eq_some_iff.mp h
      obtain ⟨t, ht, h⟩ := Option.bind_eq_some_iff.mp h
      obtain rfl := Option.some.inj h
      exact .object (hasCategories_iff.mpr ⟨he, hu, ht⟩)
    · -- A list gives its items to the keys in order; there may not be more items than keys.
      split at h
      · exact absurd h (by simp)
      next hlength =>
      obtain ⟨e, he, h⟩ := Option.bind_eq_some_iff.mp h
      obtain ⟨u, hu, h⟩ := Option.bind_eq_some_iff.mp h
      obtain ⟨t, ht, h⟩ := Option.bind_eq_some_iff.mp h
      obtain rfl := Option.some.inj h
      have hlength := Nat.not_lt.mp hlength
      exact .list rfl hlength ((hasCategories_zip_iff hlength).mpr ⟨he, hu, ht⟩)
    · exact absurd h (by simp)
  · intro h
    cases h with
    | selector => rfl
    | object h =>
      obtain ⟨he, hu, ht⟩ := hasCategories_iff.mp h
      simp only [Convention.ofJson?, he, hu, ht]
      rfl
    | @list values _ _ _ _ hlength h =>
      obtain ⟨he, hu, ht⟩ := (hasCategories_zip_iff hlength).mp h
      have hlength : ¬values.length > 3 := Nat.not_lt.mpr hlength
      rw [Convention.ofJson?, if_neg hlength, he, hu, ht]
      rfl

/-! ## Entries that are taken one after the other -/

/-- What an entry does to what has been read. A known key must not have been read before. -/
inductive Takes : ObjectProgress → String × List Char → ObjectProgress → Prop where
  | known {p : ObjectProgress} {k : OptionKey} {x : Option k.Content} {value : List Char} :
      k ∉ p.seen → OrNull IsNull (k.IsText true) x value →
      Takes p (k.text, value) ⟨p.options.set k x, k :: p.seen, false⟩
  | unknown {p : ObjectProgress} {key : String} {value : List Char} : OptionKey.ofText? key = none →
      Takes p (key, value) { p with first := false }

theorem withKey_cons_of_ne {key : String} {e : String × β} {entries : List (String × β)}
    (h : e.1 ≠ key) : withKey key (e :: entries) = withKey key entries :=
  List.filter_cons_of_neg (by simpa using h)

theorem withKey_cons_self {key : String} {b : β} {entries : List (String × β)} :
    withKey key ((key, b) :: entries) = (key, b) :: withKey key entries :=
  List.filter_cons_of_pos (by simp)

theorem OptionKey.text_ne_of_ofText? {key : String} (h : ofText? key = none) (k : OptionKey) :
    key ≠ k.text := by
  rintro rfl
  rw [k.ofText?_text] at h
  exact absurd h (by simp)

/-- What entries as a whole do to what has been read, by key. -/
def Outcome (p : ObjectProgress) (entries : List (String × List Char)) (o : Options) : Prop :=
  ∀ k, (withKey k.text entries = [] ∧ o.get k = p.options.get k) ∨
    k ∉ p.seen ∧ ∃ value, withKey k.text entries = [(k.text, value)] ∧
      OrNull IsNull (k.IsText true) (o.get k) value

/-- An entry of an option that has not been set comes down to setting it: the outcome with the entry is
that of the others behind it, with the option as the entry gives it. -/
theorem outcome_cons_known {p : ObjectProgress} {k : OptionKey} {x : Option k.Content}
    {value : List Char} {entries : List (String × List Char)} (hseen : k ∉ p.seen)
    (hvalue : OrNull IsNull (k.IsText true) x value) :
    Outcome ⟨p.options.set k x, k :: p.seen, false⟩ entries o ↔
      Outcome p ((k.text, value) :: entries) o ∧ o.get k = x := by
  constructor
  · intro h
    -- The key has been seen by then, so it does not come again and its option stays.
    have hk : withKey k.text entries = [] ∧ o.get k = x := by
      rcases h k with h | ⟨h, -⟩
      · exact ⟨h.1, h.2.trans (p.options.get_set k x)⟩
      · exact absurd (List.mem_cons_self ..) h
    refine ⟨fun k' => ?_, hk.2⟩
    by_cases hne : k' = k
    · subst hne
      refine .inr ⟨hseen, value, by rw [withKey_cons_self, hk.1], hk.2 ▸ hvalue⟩
    · rw [withKey_cons_of_ne fun h => hne (OptionKey.text_injective h).symm]
      rcases h k' with ⟨hnone, hget⟩ | ⟨hseen', hsome⟩
      · exact .inl ⟨hnone, hget.trans (Options.get_set_of_ne hne _ _)⟩
      · exact .inr ⟨fun hmem => hseen' (List.mem_cons_of_mem _ hmem), hsome⟩
  · rintro ⟨h, hk⟩ k'
    by_cases hne : k' = k
    · subst hne
      rcases h k' with ⟨hnone, -⟩ | ⟨-, value', hsome, -⟩
      · rw [withKey_cons_self] at hnone
        exact absurd hnone (by simp)
      · rw [withKey_cons_self] at hsome
        exact .inl ⟨(List.cons.inj hsome).2, hk.trans (Options.get_set ..).symm⟩
    · have h' := h k'
      rw [withKey_cons_of_ne fun h => hne (OptionKey.text_injective h).symm] at h'
      rcases h' with ⟨hnone, hget⟩ | ⟨hseen', hsome⟩
      · exact .inl ⟨hnone, hget.trans (Options.get_set_of_ne hne _ _).symm⟩
      · exact .inr ⟨fun hmem => (List.mem_cons.mp hmem).elim hne hseen', hsome⟩

/-- An entry without an option does nothing. -/
theorem outcome_cons_unknown {p : ObjectProgress} {key : String} {value : List Char}
    {entries : List (String × List Char)} (h : OptionKey.ofText? key = none) :
    Outcome { p with first := false } entries o ↔ Outcome p ((key, value) :: entries) o := by
  refine forall_congr' fun k => ?_
  have hne : (key, value).1 ≠ k.text := OptionKey.text_ne_of_ofText? h k
  rw [withKey_cons_of_ne hne]

/-- Taking entries one after the other has the outcome of them as a whole, by induction on the entries. -/
theorem outcome_of_folds {p q : ObjectProgress} {entries : List (String × List Char)}
    (h : Folds Takes p entries q) : Outcome p entries q.options := by
  induction h with
  | nil => exact fun k => .inl ⟨rfl, rfl⟩
  | cons htakes _ ih =>
    cases htakes with
    | known hseen hvalue => exact ((outcome_cons_known hseen hvalue).mp ih).1
    | unknown hunknown => exact (outcome_cons_unknown hunknown).mp ih

/-- And where entries as a whole have an outcome, they can be taken one after the other. -/
theorem folds_of_outcome {p : ObjectProgress} {entries : List (String × List Char)}
    (h : Outcome p entries o) : ∃ q, Folds Takes p entries q ∧ q.options = o := by
  induction entries generalizing p with
  | nil =>
    refine ⟨p, .nil, Options.ext_get fun k => ?_⟩
    rcases h k with ⟨-, hget⟩ | ⟨-, value, hsome, -⟩
    · exact hget.symm
    · exact absurd hsome (by simp [withKey])
  | cons e entries ih =>
    obtain ⟨key, value⟩ := e
    cases hkey : OptionKey.ofText? key with
    | none =>
      obtain ⟨q, hfolds, hq⟩ := ih ((outcome_cons_unknown hkey).mpr h)
      exact ⟨q, .cons (.unknown hkey) hfolds, hq⟩
    | some k =>
      obtain rfl := OptionKey.text_of_ofText? hkey
      -- The first entry with the key of an option is the only one, and gives what is wanted.
      obtain ⟨hseen, hvalue⟩ : k ∉ p.seen ∧ OrNull IsNull (k.IsText true) (o.get k) value := by
        rcases h k with ⟨hnone, -⟩ | ⟨hseen, value', hsome, hvalue⟩
        · rw [withKey_cons_self] at hnone
          exact absurd hnone (by simp)
        · rw [withKey_cons_self] at hsome
          obtain ⟨heq, -⟩ := List.cons.inj hsome
          exact ⟨hseen, (Prod.mk.inj heq).2 ▸ hvalue⟩
      obtain ⟨q, hfolds, hq⟩ := ih ((outcome_cons_known hseen hvalue).mpr ⟨h, rfl⟩)
      exact ⟨q, .cons (.known hseen hvalue) hfolds, hq⟩

/-- Entries give the options that come of taking them one after the other. -/
theorem has_iff_folds {entries : List (String × List Char)} {first : Bool} :
    o.Has true entries ↔ ∃ q, Folds Takes ⟨{}, [], first⟩ entries q ∧ q.options = o := by
  -- At first nothing has been seen, and no option has a value.
  have houtcome : o.Has true entries ↔ Outcome ⟨{}, [], first⟩ entries o := by
    rw [Options.has_iff]
    refine forall_congr' fun k => or_congr (and_congr_right fun _ => ?_) ?_
    · have : Options.get {} k = none := by cases k <;> rfl
      rw [this]
    · simp
  rw [houtcome]
  refine ⟨folds_of_outcome, ?_⟩
  rintro ⟨q, hfolds, rfl⟩
  exact outcome_of_folds hfolds

end QueryModule.Config
