import QueryModule.Proofs.Config.OptionEntries

/-!
# What options do not depend on

Where known keys are looked for in entries, it is of no importance in which order they come, what other
keys there are, and whether a key is absent or `null`: `Rearranged` entries give the same. This holds of
the options (`Options.has_iff_of_alike`) and of the categories in a naming convention. Moreover, lists
only count where there is one (`Options.has_iff_of_no_list`).
-/

namespace QueryModule.Config

open QueryModule.Json

variable {α β : Type} {lists : Bool} {o : Options}

/-! ## Rearranged entries -/

/-- Entries that say the same: the known ones are in another order, and the others are any; or one that is
null is left out. -/
inductive Rearranged (known : String → Bool) (Null : β → Prop) :
    List (String × β) → List (String × β) → Prop where
  | reordered {entries entries' : List (String × β)} :
      (entries.filter fun e => known e.1).Perm (entries'.filter fun e => known e.1) →
      Rearranged known Null entries entries'
  | null {front back : List (String × β)} {key : String} {b : β} : Null b →
      (∀ e ∈ front ++ back, e.1 ≠ key) →
      Rearranged known Null (front ++ (key, b) :: back) (front ++ back)

theorem withKey_append {key : String} (front back : List (String × β)) :
    withKey key (front ++ back) = withKey key front ++ withKey key back :=
  List.filter_append ..

/-- Dropping entries with unknown keys does not touch those with a known one. -/
theorem withKey_filter {known : String → Bool} {key : String} (h : known key = true)
    (entries : List (String × β)) :
    withKey key (entries.filter fun e => known e.1) = withKey key entries := by
  unfold withKey
  rw [List.filter_filter]
  refine List.filter_congr fun e _ => ?_
  by_cases hkey : e.1 = key
  · simp [hkey, h]
  · simp [hkey]

/-- What a key gives does not depend on the order of the entries with other keys. -/
theorem given_of_perm {Value : Option α → β → Prop} {key : String} {entries entries' : List (String × β)}
    {x : Option α} (hperm : (withKey key entries).Perm (withKey key entries'))
    (h : Given Value key entries x) : Given Value key entries' x := by
  rcases h with ⟨hnone, hx⟩ | ⟨b, hsome, hx⟩
  · rw [hnone] at hperm
    exact .inl ⟨List.nil_perm.mp hperm, hx⟩
  · rw [hsome] at hperm
    exact .inr ⟨b, (List.singleton_perm.mp hperm).symm, hx⟩

/-- An entry with the key gives what it holds, if it is the only one. -/
theorem given_append_cons_iff {Value : Option α → β → Prop} {key : String} {b : β}
    {front back : List (String × β)} {x : Option α} :
    Given Value key (front ++ (key, b) :: back) x ↔ withKey key (front ++ back) = [] ∧ Value x b := by
  unfold Given
  rw [withKey_append, withKey_cons_self, withKey_append]
  constructor
  · rintro (h | ⟨b', hsome, hx⟩)
    · exact absurd (List.append_eq_nil_iff.mp h.1).2 (by simp)
    · rcases List.append_eq_singleton_iff.mp hsome with ⟨hfront, hback⟩ | ⟨-, hback⟩
      · obtain ⟨heq, hback⟩ := List.cons.inj hback
        rw [hfront, hback, (Prod.mk.inj heq).2]
        exact ⟨rfl, hx⟩
      · exact absurd hback (by simp)
  · rintro ⟨hnone, hx⟩
    obtain ⟨hfront, hback⟩ := List.append_eq_nil_iff.mp hnone
    exact .inr ⟨b, by rw [hfront, hback]; rfl, hx⟩

/-- An entry with another key can be left out. -/
theorem withKey_append_cons_of_ne {key : String} {e : String × β} {front back : List (String × β)}
    (h : e.1 ≠ key) : withKey key (front ++ e :: back) = withKey key (front ++ back) := by
  rw [withKey_append, withKey_cons_of_ne h, ← withKey_append]

/-- `null` gives nothing, as does an absent entry. -/
theorem orNull_null_iff {Null : β → Prop} {Holds : α → β → Prop} {x : Option α} {b : β}
    (hnull : Null b) (hholds : ∀ a, ¬Holds a b) : OrNull Null Holds x b ↔ x = none := by
  constructor
  · intro hx
    cases hx with
    | null => rfl
    | some ha => exact absurd ha (hholds _)
  · rintro rfl
    exact .null hnull

/-- Entries that have been rearranged give the same under each known key. -/
theorem given_iff_of_rearranged {known : String → Bool} {Null : β → Prop} {Holds : α → β → Prop}
    {key : String} {entries entries' : List (String × β)} {x : Option α} (hkey : known key = true)
    (hnull : ∀ a b, Holds a b → ¬Null b) (h : Rearranged known Null entries entries') :
    Given (OrNull Null Holds) key entries x ↔ Given (OrNull Null Holds) key entries' x := by
  cases h with
  | reordered hperm =>
    have hperm : (withKey key entries).Perm (withKey key entries') := by
      rw [← withKey_filter hkey entries, ← withKey_filter hkey entries']
      exact hperm.filter _
    exact ⟨given_of_perm hperm, given_of_perm hperm.symm⟩
  | @null front back key' b hb hother =>
    by_cases hk : key' = key
    · -- With `null` the key gives nothing, and it gives nothing when it is left out.
      subst hk
      have hnone : withKey key' (front ++ back) = [] :=
        List.filter_eq_nil_iff.mpr fun e he => by simpa using hother e he
      rw [given_append_cons_iff, orNull_null_iff hb fun a ha => hnull a b ha hb]
      unfold Given
      rw [hnone]
      simp
    · unfold Given
      have hne : (key', b).1 ≠ key := hk
      rw [withKey_append_cons_of_ne hne]

/-! ## Categories -/

/-- So a map of conventions says the same when its entries are rearranged. -/
theorem hasCategories_iff_of_rearranged {entries entries' : List (String × Value)}
    {e t : Option String} {u : Option Bool}
    (h : Rearranged (· ∈ categoryKeys) (· = .null) entries entries') :
    HasCategories entries e u t ↔ HasCategories entries' e u t := by
  have hstring : ∀ {key x}, key ∈ categoryKeys →
      (Given StringOrNull key entries x ↔ Given StringOrNull key entries' x) :=
    fun hkey => given_iff_of_rearranged (decide_eq_true hkey) (by simp) h
  have hboolean : ∀ {key x}, key ∈ categoryKeys →
      (Given BooleanOrNull key entries x ↔ Given BooleanOrNull key entries' x) :=
    fun hkey => given_iff_of_rearranged (decide_eq_true hkey) (by simp) h
  constructor
  · rintro ⟨he, hu, ht⟩
    exact ⟨(hstring (by decide)).mp he, (hboolean (by decide)).mp hu, (hstring (by decide)).mp ht⟩
  · rintro ⟨he, hu, ht⟩
    exact ⟨(hstring (by decide)).mpr he, (hboolean (by decide)).mpr hu, (hstring (by decide)).mpr ht⟩

/-- The text of an object is that of a convention when its entries give one. -/
theorem conventionText_iff {value : List Char} {entries : List (String × Value)} {c : Convention}
    (h : Spells (maxNesting - 1) (.object entries) value) :
    ConventionText lists c value ↔ ∃ e u t, c = .perCategory e u t ∧ HasCategories entries e u t := by
  constructor
  · rintro ⟨v, hv, hdescribes⟩
    obtain rfl := (Reader.exact_tree _).unique h hv
    cases hdescribes with
    | object hcategories => exact ⟨_, _, _, rfl, hcategories⟩
  · rintro ⟨e, u, t, rfl, hcategories⟩
    exact ⟨_, h, .object hcategories⟩

/-- The same where the convention can be `null`. -/
theorem orNull_object_iff {value : List Char} {entries : List (String × Value)}
    {x : Option Convention} (h : Spells (maxNesting - 1) (.object entries) value) :
    OrNull IsNull (ConventionText lists) x value ↔
      ∃ e u t, x = some (.perCategory e u t) ∧ HasCategories entries e u t := by
  constructor
  · intro hx
    cases hx with
    | null hnull =>
      exact absurd ((Reader.exact_tree _).unique h (spells_of_scalar hnull)) (by simp)
    | some hc =>
      obtain ⟨e, u, t, rfl, hcategories⟩ := (conventionText_iff h).mp hc
      exact ⟨e, u, t, rfl, hcategories⟩
  · rintro ⟨e, u, t, rfl, hcategories⟩
    exact .some ((conventionText_iff h).mpr ⟨e, u, t, rfl, hcategories⟩)

/-- Objects whose entries are rearranged are texts of the same conventions. -/
theorem orNull_iff_of_rearranged {value value' : List Char} {entries entries' : List (String × Value)}
    {x : Option Convention} (h : Spells (maxNesting - 1) (.object entries) value)
    (h' : Spells (maxNesting - 1) (.object entries') value')
    (hentries : Rearranged (· ∈ categoryKeys) (· = .null) entries entries') :
    OrNull IsNull (ConventionText lists) x value ↔ OrNull IsNull (ConventionText lists) x value' := by
  rw [orNull_object_iff h, orNull_object_iff h']
  simp only [hasCategories_iff_of_rearranged hentries]

/-! ## Options -/

/-- The text of an option is not that of `null`. -/
theorem OptionKey.IsText.not_isNull {k : OptionKey} {x : k.Content} {text : List Char}
    (h : k.IsText lists x text) : ¬IsNull text := by
  have hunique : ∀ {n : Nat} {v : Value}, Spells n v text → v ≠ .null → ¬IsNull text :=
    fun hv hne hnull => hne ((Reader.exact_tree _).unique hv (spells_of_scalar hnull))
  have hstring : ∀ {s : String}, StringText s text → ¬IsNull text :=
    fun hs => @hunique 0 _ (.string hs) (by simp)
  cases k with
  | namingConvention =>
    obtain ⟨v, hv, hdescribes⟩ := h
    refine hunique hv ?_
    rintro rfl
    cases hdescribes
  | transformUnderscore => exact @hunique 0 _ h (by simp)
  | _ => exact hstring h

/-- Entries with the same options: they are rearranged, or those of the naming convention are. -/
inductive Alike : List (String × List Char) → List (String × List Char) → Prop where
  | options {entries entries' : List (String × List Char)} :
      Rearranged (fun key => (OptionKey.ofText? key).isSome) IsNull entries entries' →
      Alike entries entries'
  | convention {front back : List (String × List Char)} {value value' : List Char}
      {entries entries' : List (String × Value)} : Spells (maxNesting - 1) (.object entries) value →
      Spells (maxNesting - 1) (.object entries') value' →
      Rearranged (· ∈ categoryKeys) (· = .null) entries entries' →
      Alike (front ++ (OptionKey.namingConvention.text, value) :: back)
        (front ++ (OptionKey.namingConvention.text, value') :: back)

/-- Entries that are alike give the same options. -/
theorem Options.has_iff_of_alike {entries entries' : List (String × List Char)}
    (h : Alike entries entries') : o.Has lists entries ↔ o.Has lists entries' := by
  rw [Options.has_iff, Options.has_iff]
  refine forall_congr' fun k => ?_
  cases h with
  | options h =>
    exact given_iff_of_rearranged (by simp [k.ofText?_text]) (fun _ _ ha => ha.not_isNull) h
  | @convention front back value value' _ _ hvalue hvalue' hentries =>
    by_cases hk : k = .namingConvention
    · subst hk
      rw [given_append_cons_iff, given_append_cons_iff]
      exact and_congr_right fun _ => orNull_iff_of_rearranged hvalue hvalue' hentries
    · unfold Given
      have hne : ∀ v : List Char, (OptionKey.namingConvention.text, v).1 ≠ k.text :=
        fun _ heq => hk (OptionKey.text_injective heq).symm
      rw [withKey_append_cons_of_ne (hne value), withKey_append_cons_of_ne (hne value')]

/-! ## Lists -/

/-- What a key gives depends on the entries that have it only. -/
theorem given_congr {Value Value' : Option α → β → Prop} {key : String} {entries : List (String × β)}
    {x : Option α} (h : ∀ b, (key, b) ∈ entries → (Value x b ↔ Value' x b)) :
    Given Value key entries x ↔ Given Value' key entries x := by
  refine or_congr_right (exists_congr fun b => and_congr_right fun hsome => h b ?_)
  have hmem : (key, b) ∈ withKey key entries := by simp [hsome]
  exact List.mem_of_mem_filter hmem

/-- An optional value of one form is one of every wider form. -/
theorem orNull_imp {Null : β → Prop} {Holds Holds' : α → β → Prop} {x : Option α} {b : β}
    (h : ∀ a, Holds a b → Holds' a b) (hx : OrNull Null Holds x b) : OrNull Null Holds' x b := by
  cases hx with
  | null hnull => exact .null hnull
  | some ha => exact .some (h _ ha)

theorem orNull_congr {Null : β → Prop} {Holds Holds' : α → β → Prop} {x : Option α} {b : β}
    (h : ∀ a, Holds a b ↔ Holds' a b) : OrNull Null Holds x b ↔ OrNull Null Holds' x b :=
  ⟨orNull_imp fun a => (h a).mp, orNull_imp fun a => (h a).mpr⟩

/-- A list starts with its bracket. -/
theorem head_of_spells_list {levels : Nat} {items : List Value} {text : List Char}
    (h : Spells levels (.list items) text) : text.head? = some '[' := by
  cases levels with
  | zero => cases h
  | succ levels =>
    rcases h with h | ⟨_, -, inner, rfl, -⟩ | ⟨_, h, -⟩
    · cases h
    · rfl
    · exact absurd h (by simp)

/-- A text that is no list is that of the same convention, whether or not lists are allowed. -/
theorem conventionText_iff_of_no_list {c : Convention} {value : List Char} (h : value.head? ≠ some '[') :
    ConventionText true c value ↔ ConventionText false c value := by
  refine exists_congr fun v => and_congr_right fun hv => ?_
  constructor
  · intro hdescribes
    cases hdescribes with
    | selector => exact .selector
    | object hcategories => exact .object hcategories
    | list => exact absurd (head_of_spells_list hv) h
  · intro hdescribes
    cases hdescribes with
    | selector => exact .selector
    | object hcategories => exact .object hcategories
    | list hlists => exact absurd hlists (by simp)

/-- Unless the naming convention is a list, it is of no importance whether lists are allowed. -/
theorem Options.has_iff_of_no_list {entries : List (String × List Char)}
    (h : ∀ value, (OptionKey.namingConvention.text, value) ∈ entries → value.head? ≠ some '[') :
    o.Has true entries ↔ o.Has false entries := by
  have hconvention : Given (OrNull IsNull (ConventionText true)) "namingConvention" entries
        o.namingConvention ↔
      Given (OrNull IsNull (ConventionText false)) "namingConvention" entries o.namingConvention := by
    exact given_congr fun value hmem => orNull_congr fun _ => conventionText_iff_of_no_list (h value hmem)
  constructor
  · rintro ⟨h₁, h₂, h₃, h₄, h₅, h₆, h₇⟩
    exact ⟨h₁, h₂, h₃, h₄, h₅, hconvention.mp h₆, h₇⟩
  · rintro ⟨h₁, h₂, h₃, h₄, h₅, h₆, h₇⟩
    exact ⟨h₁, h₂, h₃, h₄, h₅, hconvention.mpr h₆, h₇⟩

end QueryModule.Config
