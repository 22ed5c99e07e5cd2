import QueryModule.Proofs.Json.Numbers
import QueryModule.Proofs.Json.Strings

/-!
# Readers of JSON texts, and sequences

A reader is exact for a grammar when it takes white space and then what the grammar allows, and takes it
wherever it stands; of what follows it only needs to know that it does not continue a number. Lists and
objects are read in rounds, each of which takes one item and what stands in front of it. If a round is
exact, so is the loop (`Rounds.iterate_eq_ok_iff`), and what it comes to is what the items make of the
state one after the other.

> `Exact.items_eq_ok_iff`: the items of a list are read as a sequence of such items.
> `Exact.entries_eq_ok_iff`: the entries of an object are read as a sequence of keys and such items.
-/

namespace QueryModule.Json

variable {α β σ : Type} {text rest : List Char}

/-! ## White space -/

/-- White space behind white space is white space. -/
theorem IsGap.append {gap gap' : List Char} (h : IsGap gap) (h' : IsGap gap') : IsGap (gap ++ gap') := by
  intro c hc
  rcases List.mem_append.mp hc with hc | hc
  · exact h c hc
  · exact h' c hc

theorem isGap_nil : IsGap [] := nofun

theorem IsGap.dropWhile_append {gap : List Char} (h : IsGap gap) (rest : List Char) :
    (gap ++ rest).dropWhile isSpace = rest.dropWhile isSpace :=
  List.dropWhile_append_of_pos h

theorem IsGap.dropWhile {gap : List Char} (h : IsGap gap) : gap.dropWhile isSpace = [] :=
  List.dropWhile_eq_nil_iff.mpr h

theorem dropWhile_cons {c : Char} (hc : isSpace c = false) (rest : List Char) :
    (c :: rest).dropWhile isSpace = c :: rest :=
  List.dropWhile_cons_of_neg (by simp [hc])

/-- What can follow a value can follow it behind white space. -/
theorem Delimited.gap {gap : List Char} (h : Delimited rest) (hgap : IsGap gap) :
    Delimited (gap ++ rest) := by
  cases gap with
  | nil => exact h
  | cons c gap => exact fun d hd => .inl (Option.some.inj hd ▸ hgap c (List.mem_cons_self ..))

/-- The text is white space, or white space and something else. -/
theorem isGap_or_exists (text : List Char) : (IsGap text ∧ text.dropWhile isSpace = []) ∨
    ∃ gap c more, text = gap ++ c :: more ∧ IsGap gap ∧ isSpace c = false ∧
      text.dropWhile isSpace = c :: more := by
  obtain ⟨htext, hgap, hrest⟩ := span_eq_iff.mp (List.span_eq_takeWhile_dropWhile isSpace text)
  cases hdrop : text.dropWhile isSpace with
  | nil =>
    rw [hdrop, List.append_nil] at htext
    exact .inl ⟨htext ▸ hgap, rfl⟩
  | cons c more =>
    rw [hdrop] at htext hrest
    exact .inr ⟨_, c, more, htext, hgap, hrest c rfl, rfl⟩

/-- The start of an item of a list. -/
def StartsItem (text : List Char) : Prop :=
  ∃ c more, text = c :: more ∧ isSpace c = false ∧ c ≠ ']'

/-- Whether a text starts an item is seen from its beginning. -/
theorem StartsItem.append (h : StartsItem text) (rest : List Char) : StartsItem (text ++ rest) := by
  obtain ⟨c, more, rfl, hspace, hc⟩ := h
  exact ⟨c, more ++ rest, rfl, hspace, hc⟩

theorem StartsItem.ne_nil (h : StartsItem text) : text ≠ [] := by
  obtain ⟨c, more, rfl, -⟩ := h
  simp

/-- There is no white space in front of an item. -/
theorem StartsItem.gap_eq_nil {gap : List Char} (h : StartsItem (gap ++ rest)) (hgap : IsGap gap) :
    gap = [] := by
  obtain ⟨c, more, heq, hspace, -⟩ := h
  cases gap with
  | nil => rfl
  | cons d gap =>
    rw [← (List.cons.inj heq).1, hgap d (List.mem_cons_self ..)] at hspace
    exact absurd hspace (by simp)

namespace Reader

/-! ## Reading step by step -/

/-- Readers one behind the other succeed when both do, the second on what the first has left. -/
theorem then_eq_ok_iff {r : Reader α} {f : α → Reader β} {b : β} : (r >>= f) text = .ok (b, rest) ↔
    ∃ a between, r text = .ok (a, between) ∧ f a between = .ok (b, rest) := by
  show (r text >>= fun p => f p.1 p.2) = _ ↔ _
  rw [bind_eq_ok, Prod.exists]

theorem pure_eq_ok_iff {a b : α} :
    (pure a : Reader α) text = .ok (b, rest) ↔ a = b ∧ text = rest := by
  show Except.ok (a, text) = _ ↔ _
  rw [Except.ok.injEq, Prod.mk.injEq]

theorem fail_ne_ok {e : JsonError} {a : α} : ¬ (fail e : Reader α) text = .ok (a, rest) := nofun

/-- What comes after white space. -/
theorem next_eq_ok_iff {f : Option Char → Reader α} {a : α} :
    (skipSpace >>= fun _ => peek >>= f) text = .ok (a, rest) ↔
      (IsGap text ∧ f none [] = .ok (a, rest)) ∨
      ∃ gap c more, text = gap ++ c :: more ∧ IsGap gap ∧ isSpace c = false ∧
        f (some c) (c :: more) = .ok (a, rest) := by
  show f (text.dropWhile isSpace).head? (text.dropWhile isSpace) = _ ↔ _
  constructor
  · intro h
    rcases isGap_or_exists text with ⟨hgap, hdrop⟩ | ⟨gap, c, more, htext, hgap, hc, hdrop⟩
    · exact .inl ⟨hgap, by rwa [hdrop] at h⟩
    · exact .inr ⟨gap, c, more, htext, hgap, hc, by rwa [hdrop] at h⟩
  · rintro (⟨hgap, h⟩ | ⟨gap, c, more, rfl, hgap, hc, h⟩)
    · rwa [hgap.dropWhile]
    · rwa [hgap.dropWhile_append, dropWhile_cons hc]

/-- The next character after white space, where a text that ends is an error. -/
theorem next_some_eq_ok_iff {f : Option Char → Reader α} {a : α} {e : JsonError}
    (hnone : f none = fail e) : (skipSpace >>= fun _ => peek >>= f) text = .ok (a, rest) ↔
      ∃ gap c more, text = gap ++ c :: more ∧ IsGap gap ∧ isSpace c = false ∧
        f (some c) (c :: more) = .ok (a, rest) := by
  rw [next_eq_ok_iff, hnone]
  exact or_iff_right fun h => fail_ne_ok h.2

theorem advance_then {f : Unit → Reader α} (c : Char) (rest : List Char) :
    (advance >>= f) (c :: rest) = f () rest := rfl

/-! ## Brackets, commas and colons -/

/-- There is another item when one starts behind the comma, or at once if it is the first. -/
theorem hasItem_eq_true_iff {first : Bool} : hasItem first text = .ok (true, rest) ↔
    ∃ lead, text = lead ++ rest ∧ Lead first lead ∧ StartsItem rest := by
  unfold hasItem
  rw [next_some_eq_ok_iff rfl]
  constructor
  · rintro ⟨gap, c, more, rfl, hgap, hc, h⟩
    dsimp only at h
    split at h
    · -- The list ends.
      exact absurd h (by simp [pure_eq_ok_iff])
    next hclose =>
    split at h
    · -- The first item needs no comma.
      next hfirst =>
      obtain ⟨-, rfl⟩ := pure_eq_ok_iff.mp h
      exact ⟨gap, rfl, hfirst ▸ .first hgap, c, more, rfl, hc, hclose⟩
    next hfirst =>
    obtain rfl : first = false := by simpa using hfirst
    split at h
    · -- Behind a comma there is white space again, and then no closing bracket.
      next hcomma =>
      subst hcomma
      rw [advance_then, next_some_eq_ok_iff rfl] at h
      obtain ⟨gap', d, rest', rfl, hgap', hd, h⟩ := h
      dsimp only at h
      split at h
      · exact absurd h fail_ne_ok
      next hclose' =>
      obtain ⟨-, rfl⟩ := pure_eq_ok_iff.mp h
      exact ⟨gap ++ ',' :: gap', by simp, .next hgap hgap', d, rest', rfl, hd, hclose'⟩
    · exact absurd h fail_ne_ok
  · rintro ⟨lead, rfl, hlead, d, more, rfl, hd, hclose⟩
    cases hlead with
    | first hgap =>
      refine ⟨lead, d, more, rfl, hgap, hd, ?_⟩
      dsimp only
      rw [if_neg hclose, if_pos rfl]
      rfl
    | @next gap gap' hgap hgap' =>
      refine ⟨gap, ',', gap' ++ d :: more, by simp, hgap, rfl, ?_⟩
      dsimp only
      rw [if_neg (by decide), if_neg (by simp), if_pos rfl, advance_then, next_some_eq_ok_iff rfl]
      refine ⟨gap', d, more, rfl, hgap', hd, ?_⟩
      dsimp only
      rw [if_neg hclose]
      rfl

/-- There is none when the closing bracket comes next. It is left for the end of the list. -/
theorem hasItem_eq_false_iff {first : Bool} : hasItem first text = .ok (false, rest) ↔
    ∃ gap more, text = gap ++ ']' :: more ∧ IsGap gap ∧ rest = [']'] ++ more := by
  unfold hasItem
  rw [next_some_eq_ok_iff rfl]
  constructor
  · rintro ⟨gap, c, more, rfl, hgap, hc, h⟩
    dsimp only at h
    split at h
    · next hclose =>
      obtain ⟨-, rfl⟩ := pure_eq_ok_iff.mp h
      exact ⟨gap, more, by rw [hclose], hgap, by rw [hclose]; rfl⟩
    split at h
    · exact absurd h (by simp [pure_eq_ok_iff])
    split at h
    · next hcomma =>
      subst hcomma
      rw [advance_then, next_some_eq_ok_iff rfl] at h
      obtain ⟨gap', d, rest', -, -, -, h⟩ := h
      dsimp only at h
      split at h
      · exact absurd h fail_ne_ok
      · exact absurd h (by simp [pure_eq_ok_iff])
    · exact absurd h fail_ne_ok
  · rintro ⟨gap, more, rfl, hgap, rfl⟩
    exact ⟨gap, ']', more, rfl, hgap, rfl, rfl⟩

/-- A mark that has to come next. -/
theorem mark_eq_ok_iff {f : Option Char → Reader Unit} {mark : Char} {e : JsonError}
    (hnone : f none = fail e) (hmark : isSpace mark = false) (htake : f (some mark) = advance)
    (hother : ∀ c, c ≠ mark → ∀ more rest, ¬ f (some c) (c :: more) = .ok ((), rest)) :
    (skipSpace >>= fun _ => peek >>= f) text = .ok ((), rest) ↔
      ∃ gap, text = gap ++ mark :: rest ∧ IsGap gap := by
  rw [next_some_eq_ok_iff hnone]
  constructor
  · rintro ⟨gap, c, more, rfl, hgap, -, h⟩
    by_cases hc : c = mark
    · subst hc
      rw [htake] at h
      obtain rfl : more = rest := congrArg Prod.snd (Except.ok.inj h)
      exact ⟨gap, rfl, hgap⟩
    · exact absurd h (hother c hc more rest)
  · rintro ⟨gap, rfl, hgap⟩
    exact ⟨gap, mark, rest, rfl, hgap, hmark, by rw [htake]; rfl⟩

/-- The end of a list is its closing bracket, behind white space. -/
theorem closeList_eq_ok_iff : closeList text = .ok ((), rest) ↔
    ∃ gap, text = gap ++ ']' :: rest ∧ IsGap gap := by
  refine mark_eq_ok_iff rfl rfl rfl fun c hc more rest h => ?_
  dsimp only at h
  rw [if_neg hc] at h
  split at h
  · next hcomma =>
    subst hcomma
    rw [advance_then, next_eq_ok_iff] at h
    rcases h with ⟨-, h⟩ | ⟨gap, d, more, -, -, -, h⟩
    · split at h <;> exact fail_ne_ok h
    · split at h <;> exact fail_ne_ok h
  · exact fail_ne_ok h

/-- Between a key and its value there is a colon, behind white space. -/
theorem colon_eq_ok_iff : colon text = .ok ((), rest) ↔
    ∃ gap, text = gap ++ ':' :: rest ∧ IsGap gap := by
  refine mark_eq_ok_iff rfl rfl rfl fun c hc more rest h => ?_
  dsimp only at h
  rw [if_neg hc] at h
  exact fail_ne_ok h

/-- The body of a string is read exactly when it spells one with its quotation mark in front. -/
theorem stringBody_eq_ok_iff {s : String} : stringBody text = .ok (s, rest) ↔
    ∃ used, '"' :: text = used ++ rest ∧ StringText s used := by
  unfold stringBody
  rw [map_eq_ok]
  constructor
  · rintro ⟨⟨chars, after⟩, h, heq⟩
    obtain ⟨rfl, rfl⟩ := Prod.mk.inj heq
    obtain ⟨body, rfl, hbody⟩ := stringFrom_eq_ok_iff.mp h
    exact ⟨'"' :: body ++ ['"'], by simp, body, by rwa [String.toList_ofList], rfl⟩
  · rintro ⟨_, h, body, hbody, rfl⟩
    obtain rfl : text = body ++ '"' :: rest := by simpa using h
    exact ⟨(s.toList, rest), hbody.stringFrom_append rest, by simp only [String.ofList_toList]⟩

/-- It is passed over exactly when it has the form of one. -/
theorem skipString_eq_ok_iff : skipString text = .ok ((), rest) ↔
    ∃ used, '"' :: text = used ++ rest ∧ IsString used := by
  unfold skipString
  rw [map_eq_ok]
  constructor
  · rintro ⟨after, h, heq⟩
    obtain ⟨-, rfl⟩ := Prod.mk.inj heq
    obtain ⟨body, rfl, hbody⟩ := skipStringFrom_eq_ok_iff.mp h
    exact ⟨'"' :: body ++ ['"'], by simp, body, hbody, rfl⟩
  · rintro ⟨_, h, body, hbody, rfl⟩
    obtain rfl : text = body ++ '"' :: rest := by simpa using h
    exact ⟨rest, hbody.skipStringFrom_append rest, rfl⟩

/-- The end of an object or the key of its next entry, where `k` reads the key. -/
theorem key_eq_ok_iff {k : Option Char → Reader α} {close : Reader α} {first : Bool} {a : α}
    {e e' e'' : JsonError} (hnone : k none = fail e')
    (hk : ∀ c, c ≠ '"' → ∀ more rest, ¬ k (some c) (c :: more) = .ok (a, rest)) :
    (do
      skipSpace
      match ← peek with
      | none => fail e
      | some c =>
        if c = '\x7d' then close
        else if !first then
          if c = ',' then advance >>= fun _ => skipSpace >>= fun _ => peek >>= k
          else (fail e'' : Reader PUnit) >>= fun _ => peek >>= k
        else peek >>= k) text = .ok (a, rest) ↔
      (∃ gap more, text = gap ++ '\x7d' :: more ∧ IsGap gap ∧
        close ('\x7d' :: more) = .ok (a, rest)) ∨
      ∃ lead more, text = lead ++ '"' :: more ∧ Lead first lead ∧
        k (some '"') ('"' :: more) = .ok (a, rest) := by
  rw [next_some_eq_ok_iff rfl]
  constructor
  · rintro ⟨gap, c, more, rfl, hgap, -, h⟩
    dsimp only at h
    split at h
    · next hc =>
      subst hc
      exact .inl ⟨gap, more, rfl, hgap, h⟩
    refine .inr ?_
    -- The first key stands behind white space alone, any other one behind a comma.
    cases first with
    | true =>
      have h : k (some c) (c :: more) = .ok (a, rest) := h
      obtain rfl : c = '"' := by_contra fun hc => hk c hc more rest h
      exact ⟨gap, more, rfl, .first hgap, h⟩
    | false =>
      rw [if_pos (by rfl)] at h
      split at h
      · next hcomma =>
        subst hcomma
        rw [advance_then, next_some_eq_ok_iff hnone] at h
        obtain ⟨gap', d, more', rfl, hgap', -, h⟩ := h
        obtain rfl : d = '"' := by_contra fun hd => hk d hd more' rest h
        exact ⟨gap ++ ',' :: gap', more', by simp, .next hgap hgap', h⟩
      · obtain ⟨_, _, hfail, -⟩ := then_eq_ok_iff.mp h
        exact absurd hfail fail_ne_ok
  · rintro (⟨gap, more, rfl, hgap, h⟩ | ⟨lead, more, rfl, hlead, h⟩)
    · exact ⟨gap, '\x7d', more, rfl, hgap, rfl, h⟩
    cases hlead with
    | first hgap => exact ⟨lead, '"', more, rfl, hgap, rfl, h⟩
    | @next gap gap' hgap hgap' =>
      refine ⟨gap, ',', gap' ++ '"' :: more, by simp, hgap, rfl, ?_⟩
      dsimp only
      rw [if_neg (by decide), if_pos (by rfl), if_pos rfl, advance_then, next_some_eq_ok_iff hnone]
      exact ⟨gap', '"', more, rfl, hgap', rfl, h⟩

/-- The key of the next entry, or no key where the object ends. -/
theorem nextKey_eq_ok_iff {first : Bool} {found : Option String} :
    nextKey first text = .ok (found, rest) ↔
      (∃ gap more, text = gap ++ '\x7d' :: more ∧ IsGap gap ∧ rest = ['\x7d'] ++ more ∧ found = none) ∨
      ∃ lead key used, text = lead ++ (used ++ rest) ∧ Lead first lead ∧ StringText key used ∧
        found = some key := by
  unfold nextKey
  refine Iff.trans (key_eq_ok_iff rfl fun c hc more rest h => ?_) (or_congr ?_ ?_)
  · -- What is neither a key nor the end is an error.
    dsimp only at h
    rw [if_neg hc] at h
    split at h <;> exact fail_ne_ok h
  · refine exists_congr fun gap => exists_congr fun more => ?_
    refine and_congr_right fun _ => and_congr_right fun _ => ?_
    rw [pure_eq_ok_iff, and_comm, eq_comm, @eq_comm _ found]
    rfl
  dsimp only
  constructor
  · rintro ⟨lead, more, rfl, hlead, h⟩
    rw [if_pos rfl, advance_then, then_eq_ok_iff] at h
    obtain ⟨key, after, hkey, h⟩ := h
    obtain ⟨rfl, rfl⟩ := pure_eq_ok_iff.mp h
    obtain ⟨used, hused, hstring⟩ := stringBody_eq_ok_iff.mp hkey
    exact ⟨lead, key, used, by rw [hused], hlead, hstring, rfl⟩
  · rintro ⟨lead, key, used, rfl, hlead, hstring, rfl⟩
    -- The text of a string starts with its mark.
    obtain ⟨more, hmore⟩ : ∃ more, '"' :: more = used ++ rest := by
      obtain ⟨body, -, rfl⟩ := hstring
      exact ⟨_, rfl⟩
    refine ⟨lead, more, by rw [hmore], hlead, ?_⟩
    rw [if_pos rfl, advance_then, then_eq_ok_iff]
    exact ⟨key, rest, stringBody_eq_ok_iff.mpr ⟨used, hmore, hstring⟩, pure_eq_ok_iff.mpr ⟨rfl, rfl⟩⟩

/-- Where an object is passed over, its end is taken, or the key of its next entry and the colon. -/
theorem skipToEntry_eq_ok_iff {first more : Bool} : skipToEntry first text = .ok (more, rest) ↔
      (∃ gap, text = gap ++ '\x7d' :: rest ∧ IsGap gap ∧ more = false) ∨
      ∃ lead key gap, text = lead ++ (key ++ (gap ++ ':' :: rest)) ∧ Lead first lead ∧ IsString key ∧
        IsGap gap ∧ more = true := by
  unfold skipToEntry
  refine Iff.trans (key_eq_ok_iff rfl fun c hc more rest h => ?_) (or_congr ?_ ?_)
  · -- What is neither a key nor the end is an error.
    dsimp only at h
    rw [if_neg hc] at h
    exact fail_ne_ok h
  · constructor
    · rintro ⟨gap, after, rfl, hgap, h⟩
      obtain ⟨rfl, rfl⟩ := pure_eq_ok_iff.mp h
      exact ⟨gap, rfl, hgap, rfl⟩
    · rintro ⟨gap, rfl, hgap, rfl⟩
      exact ⟨gap, rest, rfl, hgap, rfl⟩
  dsimp only
  constructor
  · rintro ⟨lead, after, rfl, hlead, h⟩
    rw [if_pos rfl, advance_then, then_eq_ok_iff] at h
    obtain ⟨⟨⟩, between, hskip, h⟩ := h
    obtain ⟨⟨⟩, after, hcolon, h⟩ := then_eq_ok_iff.mp h
    obtain ⟨rfl, rfl⟩ := pure_eq_ok_iff.mp h
    obtain ⟨key, hused, hkey⟩ := skipString_eq_ok_iff.mp hskip
    obtain ⟨gap, rfl, hgap⟩ := colon_eq_ok_iff.mp hcolon
    exact ⟨lead, key, gap, by rw [hused], hlead, hkey, hgap, rfl⟩
  · rintro ⟨lead, key, gap, rfl, hlead, hkey, hgap, rfl⟩
    obtain ⟨after, hafter⟩ : ∃ after, '"' :: after = key ++ (gap ++ ':' :: rest) := by
      obtain ⟨body, -, rfl⟩ := hkey
      exact ⟨_, rfl⟩
    refine ⟨lead, after, by rw [hafter], hlead, ?_⟩
    rw [if_pos rfl, advance_then, then_eq_ok_iff]
    refine ⟨(), _, skipString_eq_ok_iff.mpr ⟨key, hafter, hkey⟩, ?_⟩
    exact then_eq_ok_iff.mpr ⟨(), rest, colon_eq_ok_iff.mpr ⟨gap, rfl, hgap⟩, rfl⟩

/-- Where a list is passed over, its end is taken, or the comma in front of its next item. Only the
first item is looked at: behind a comma it is left to the reader of the item to find one. -/
theorem skipToItem_eq_ok_iff {first more : Bool} : skipToItem first text = .ok (more, rest) ↔
      (∃ gap, text = gap ++ ']' :: rest ∧ IsGap gap ∧ more = false) ∨
      ∃ gap, text = gap ++ (if first then rest else ',' :: rest) ∧ IsGap gap ∧
        (first = true → StartsItem rest) ∧ more = true := by
  unfold skipToItem
  rw [next_some_eq_ok_iff rfl]
  constructor
  · rintro ⟨gap, c, after, rfl, hgap, hc, h⟩
    dsimp only at h
    split at h
    · -- The list ends.
      next hclose =>
      rw [advance_then] at h
      obtain ⟨rfl, rfl⟩ := pure_eq_ok_iff.mp h
      exact .inl ⟨gap, by rw [hclose], hgap, rfl⟩
    next hclose =>
    split at h
    · -- The first item is left where it starts.
      next hfirst =>
      obtain ⟨rfl, rfl⟩ := pure_eq_ok_iff.mp h
      exact .inr ⟨gap, by rw [if_pos hfirst], hgap, fun _ => ⟨c, after, rfl, hc, hclose⟩, rfl⟩
    next hfirst =>
    split at h
    · -- The comma is taken, and what is behind it is not looked at.
      next hcomma =>
      rw [advance_then] at h
      obtain ⟨rfl, rfl⟩ := pure_eq_ok_iff.mp h
      exact .inr ⟨gap, by rw [if_neg hfirst, hcomma], hgap, fun h => absurd h hfirst, rfl⟩
    · exact absurd h fail_ne_ok
  · rintro (⟨gap, rfl, hgap, rfl⟩ | ⟨gap, rfl, hgap, hstarts, rfl⟩)
    · exact ⟨gap, ']', rest, rfl, hgap, rfl, rfl⟩
    cases first with
    | true =>
      obtain ⟨c, after, rfl, hc, hclose⟩ := hstarts rfl
      refine ⟨gap, c, after, rfl, hgap, hc, ?_⟩
      dsimp only
      rw [if_neg hclose]
      rfl
    | false => exact ⟨gap, ',', rest, rfl, hgap, rfl, rfl⟩

theorem skipToEntry_eq_true_iff {first : Bool} : skipToEntry first text = .ok (true, rest) ↔
    ∃ lead key gap, text = lead ++ (key ++ (gap ++ ':' :: rest)) ∧ Lead first lead ∧ IsString key ∧
      IsGap gap := by
  simp [skipToEntry_eq_ok_iff]

theorem skipToEntry_eq_false_iff {first : Bool} : skipToEntry first text = .ok (false, rest) ↔
    ∃ gap, text = gap ++ '\x7d' :: rest ∧ IsGap gap := by
  simp [skipToEntry_eq_ok_iff]

theorem skipToItem_eq_true_iff {first : Bool} : skipToItem first text = .ok (true, rest) ↔
    ∃ gap, text = gap ++ (if first then rest else ',' :: rest) ∧ IsGap gap ∧
      (first = true → StartsItem rest) := by
  simp [skipToItem_eq_ok_iff]

theorem skipToItem_eq_false_iff {first : Bool} : skipToItem first text = .ok (false, rest) ↔
    ∃ gap, text = gap ++ ']' :: rest ∧ IsGap gap := by
  simp [skipToItem_eq_ok_iff]

/-! ## Exact readers -/

/-- The reader takes white space and what the grammar allows, whatever can follow a value. -/
structure Exact (r : Reader α) (G : α → List Char → Prop) : Prop where
  sound : ∀ {text rest x}, r text = .ok (x, rest) →
    ∃ gap used, text = gap ++ (used ++ rest) ∧ IsGap gap ∧ G x used
  complete : ∀ {gap used rest x}, IsGap gap → G x used → Delimited rest →
    r (gap ++ (used ++ rest)) = .ok (x, rest)
  starts : ∀ {used x}, G x used → StartsItem used

/-- The state that the items of a sequence make of a state one after the other. -/
inductive Folds (Push : σ → α → σ → Prop) : σ → List α → σ → Prop where
  | nil {s : σ} : Folds Push s [] s
  | cons {s t u : σ} {x : α} {xs : List α} : Push s x t → Folds Push t xs u → Folds Push s (x :: xs) u

/-- A round of a loop takes an item and what stands in front of it, which depends on whether it is the
first one, or it comes to the closing bracket and leaves some of it. -/
structure Rounds (step : σ → Reader (Option σ)) (first : σ → Bool) (Item : α → List Char → Prop)
    (Push : σ → α → σ → Prop) (close : Char) (left : List Char) : Prop where
  sound : ∀ {s t text rest}, step s text = .ok (some t, rest) →
    ∃ x lead used, text = lead ++ (used ++ rest) ∧ Lead (first s) lead ∧ Item x used ∧ Push s x t
  complete : ∀ {s t x lead used rest}, Lead (first s) lead → Item x used → Push s x t →
    Delimited rest → step s (lead ++ (used ++ rest)) = .ok (some t, rest)
  last : ∀ {s text rest}, step s text = .ok (none, rest) ↔
    ∃ gap more, text = gap ++ close :: more ∧ IsGap gap ∧ rest = left ++ more
  next : ∀ {s t x}, Push s x t → first t = false
  nonempty : ∀ {s t x used}, Push s x t → Item x used → used ≠ []
  closes : close = ']' ∨ close = '\x7d'

end Reader

/-- A closing bracket can follow every value. -/
theorem delimited_close {close : Char} (h : close = ']' ∨ close = '\x7d') (rest : List Char) :
    Delimited (close :: rest) := by
  intro c hc
  rw [← Option.some.inj hc]
  rcases h with rfl | rfl
  · exact .inr (.inr (.inl rfl))
  · exact .inr (.inr (.inr rfl))

/-- Behind an item comes what can follow it. -/
theorem Sequence.delimited {Item : α → List Char → Prop} {xs : List α}
    (h : Sequence Item false xs text) (hrest : Delimited rest) : Delimited (text ++ rest) := by
  cases h with
  | nil hgap => exact hrest.gap hgap
  | cons hlead =>
    cases hlead with
    | next hgap =>
      rw [List.append_assoc, List.append_assoc, List.append_assoc]
      exact Delimited.gap (fun c hc => .inr (.inl (Option.some.inj hc).symm)) hgap

namespace Reader

/-- A loop takes a sequence of items up to the closing bracket, and its state is what they make of the
first one. In one direction by induction on the rounds of the loop, in the other on the sequence. -/
theorem Rounds.iterate_eq_ok_iff {step : σ → Reader (Option σ)} {first : σ → Bool}
    {Item : α → List Char → Prop} {Push : σ → α → σ → Prop} {close : Char} {left : List Char}
    (h : Rounds step first Item Push close left) {s t : σ} : iterate step s text = .ok (t, rest) ↔
      ∃ xs inner more, text = inner ++ close :: more ∧ rest = left ++ more ∧
        Sequence Item (first s) xs inner ∧ Folds Push s xs t := by
  constructor
  · intro hrun
    -- Each round puts the item that it takes in front of those of the other rounds.
    fun_induction iterate step s text with
    | case1 => exact absurd hrun (by simp)
    | case2 s text rest' hstep =>
      obtain ⟨rfl, rfl⟩ := Prod.mk.inj (Except.ok.inj hrun)
      obtain ⟨gap, more, rfl, hgap, rfl⟩ := h.last.mp hstep
      exact ⟨[], gap, more, rfl, rfl, .nil hgap, .nil⟩
    | case3 s text u rest' hstep hless ih =>
      obtain ⟨x, lead, used, rfl, hlead, hitem, hpush⟩ := h.sound hstep
      obtain ⟨xs, inner, more, rfl, hrest, hseq, hfolds⟩ := ih hrun
      rw [h.next hpush] at hseq
      exact ⟨x :: xs, lead ++ used ++ inner, more, by simp, hrest, .cons hlead hitem hseq,
        .cons hpush hfolds⟩
    | case4 s text u rest' hstep hless =>
      -- A round takes at least one character.
      obtain ⟨x, lead, used, rfl, hlead, hitem, hpush⟩ := h.sound hstep
      have := List.length_pos_iff.mpr (h.nonempty hpush hitem)
      rw [List.length_append, List.length_append] at hless
      omega
  · rintro ⟨xs, inner, more, rfl, rfl, hseq, hfolds⟩
    induction hfolds generalizing inner with
    | @nil s =>
      generalize hxs : ([] : List α) = xs at hseq
      cases hseq with
      | cons => exact absurd hxs (by simp)
      | nil hgap => rw [iterate, h.last.mpr ⟨inner, more, rfl, hgap, rfl⟩]
    | @cons s t u x xs hpush _ ih =>
      cases hseq with
      | @cons _ _ _ lead used rest' hlead hitem hseq =>
        -- An item is read in full because of what the rest of the sequence starts with.
        have hdelimited := hseq.delimited (delimited_close h.closes more)
        rw [iterate, List.append_assoc, List.append_assoc, h.complete hlead hitem hpush hdelimited]
        have := List.length_pos_iff.mpr (h.nonempty hpush hitem)
        dsimp only
        rw [if_pos (by simp only [List.length_append]; omega)]
        exact ih rest' (h.next hpush ▸ hseq)

/-! ## Lists and objects -/

/-- A round that looks first whether there is another item, and takes it. -/
theorem guarded_eq_some_iff {starts : Reader Bool} {take : Reader (Option σ)} {s : σ} :
    (starts >>= fun more => if more then take else pure none) text = .ok (some s, rest) ↔
      ∃ between, starts text = .ok (true, between) ∧ take between = .ok (some s, rest) := by
  rw [then_eq_ok_iff]
  constructor
  · rintro ⟨more, between, hmore, htake⟩
    cases more with
    | false => exact absurd (pure_eq_ok_iff.mp htake).1 (by simp)
    | true => exact ⟨between, hmore, htake⟩
  · rintro ⟨between, hmore, htake⟩
    exact ⟨true, between, hmore, htake⟩

/-- A round that ends the loop has found no further item. -/
theorem guarded_eq_none_iff {starts : Reader Bool} {take : Reader (Option σ)}
    (htake : ∀ between, ¬ take between = .ok (none, rest)) :
    (starts >>= fun more => if more then take else pure none) text = .ok (none, rest) ↔
      starts text = .ok (false, rest) := by
  rw [then_eq_ok_iff]
  constructor
  · rintro ⟨more, between, hmore, hread⟩
    cases more with
    | false =>
      obtain ⟨-, rfl⟩ := pure_eq_ok_iff.mp hread
      exact hmore
    | true => exact absurd hread (htake between)
  · exact fun hmore => ⟨false, rest, hmore, rfl⟩

/-- What ends in a state does not end without one. -/
theorem then_some_ne_none {r : Reader α} {f : α → σ} :
    ¬ (r >>= fun a => pure (some (f a))) text = .ok (none, rest) := by
  intro h
  obtain ⟨_, _, -, hnext⟩ := then_eq_ok_iff.mp h
  exact absurd (pure_eq_ok_iff.mp hnext).1 (by simp)

/-- What is put in front one by one ends up in reverse. -/
theorem folds_push {xs ys zs : List α} :
    Folds (fun read x next => next = x :: read) ys xs zs ↔ zs = xs.reverse ++ ys := by
  constructor
  · intro h
    induction h with
    | nil => rfl
    | cons hpush _ ih => rw [ih, hpush, List.reverse_cons, List.append_assoc, List.singleton_append]
  · rintro rfl
    induction xs generalizing ys with
    | nil => exact .nil
    | cons x xs ih =>
      refine .cons rfl ?_
      rw [List.reverse_cons, List.append_assoc, List.singleton_append]
      exact ih

/-- A loop puts what it reads in front of what it has read, and at the end all of it is turned round. -/
theorem Rounds.gathered_eq_ok_iff {step : List α → Reader (Option (List α))}
    {Item : α → List Char → Prop} {close : Char} {closing : Reader Unit}
    (h : Rounds step List.isEmpty Item (fun read x next => next = x :: read) close [close])
    (hclosing : ∀ rest, closing (close :: rest) = .ok ((), rest)) {xs : List α} :
    (do
      let read ← iterate step []
      closing
      return read.reverse) text = .ok (xs, rest) ↔
      ∃ inner, text = inner ++ close :: rest ∧ Sequence Item true xs inner := by
  rw [then_eq_ok_iff]
  constructor
  · -- The loop leaves the bracket, which is what the end of the list takes.
    rintro ⟨read, between, hread, hrun⟩
    obtain ⟨ys, inner, more, rfl, rfl, hseq, hfolds⟩ := h.iterate_eq_ok_iff.mp hread
    obtain ⟨_, after, hclose, hnext⟩ := then_eq_ok_iff.mp hrun
    obtain ⟨-, rfl⟩ := Prod.mk.inj (Except.ok.inj ((hclosing more).symm.trans hclose))
    obtain ⟨rfl, rfl⟩ := pure_eq_ok_iff.mp hnext
    rw [folds_push.mp hfolds, List.append_nil, List.reverse_reverse]
    exact ⟨inner, rfl, hseq⟩
  · rintro ⟨inner, rfl, hseq⟩
    refine ⟨xs.reverse, close :: rest, h.iterate_eq_ok_iff.mpr ?_, ?_⟩
    · exact ⟨xs, inner, rest, rfl, rfl, hseq, folds_push.mpr (List.append_nil _).symm⟩
    · exact then_eq_ok_iff.mpr ⟨(), rest, hclosing rest, pure_eq_ok_iff.mpr ⟨List.reverse_reverse xs, rfl⟩⟩

/-- A round over the items of a list takes one with an exact reader. -/
theorem Exact.items_rounds {item : Reader α} {G : α → List Char → Prop} (h : Exact item G) :
    Rounds (fun read => do if ← hasItem read.isEmpty then return some ((← item) :: read) else return none)
      List.isEmpty G (fun read x next => next = x :: read) ']' [']'] where
  sound := by
    intro s t text rest hrun
    obtain ⟨between, hmore, hread⟩ := guarded_eq_some_iff.mp hrun
    obtain ⟨x, after, hitem, hnext⟩ := then_eq_ok_iff.mp hread
    obtain ⟨hpush, rfl⟩ := pure_eq_ok_iff.mp hnext
    obtain ⟨lead, rfl, hlead, hstarts⟩ := hasItem_eq_true_iff.mp hmore
    obtain ⟨gap, used, rfl, hgap, hx⟩ := h.sound hitem
    obtain rfl := hstarts.gap_eq_nil hgap
    exact ⟨x, lead, used, rfl, hlead, hx, (Option.some.inj hpush).symm⟩
  complete := by
    intro s t x lead used rest hlead hx hpush hrest
    refine guarded_eq_some_iff.mpr ⟨used ++ rest, ?_, ?_⟩
    · exact hasItem_eq_true_iff.mpr ⟨lead, rfl, hlead, (h.starts hx).append rest⟩
    · refine then_eq_ok_iff.mpr ⟨x, rest, h.complete isGap_nil hx hrest, ?_⟩
      exact pure_eq_ok_iff.mpr ⟨congrArg some hpush.symm, rfl⟩
  last := (guarded_eq_none_iff fun _ => then_some_ne_none).trans hasItem_eq_false_iff
  next := fun hpush => by rw [hpush]; rfl
  nonempty := fun _ hx => (h.starts hx).ne_nil
  closes := .inl rfl

/-- The items of a list, behind its opening bracket. -/
theorem Exact.items_eq_ok_iff {item : Reader α} {G : α → List Char → Prop} (h : Exact item G)
    {xs : List α} : items item text = .ok (xs, rest) ↔
      ∃ inner, text = inner ++ ']' :: rest ∧ Sequence G true xs inner := by
  unfold items
  exact h.items_rounds.gathered_eq_ok_iff fun _ => rfl

/-- A round over the entries of an object takes a key, and then the colon and what comes after it. -/
theorem keyed_rounds {behind : σ → Option String → Reader (Option σ)} {first : σ → Bool}
    {Item : α → List Char → Prop} {Push : σ → String × α → σ → Prop}
    (hend : ∀ s, behind s none = pure none)
    (hsound : ∀ {key s found text rest}, behind s (some key) text = .ok (found, rest) →
      ∃ gap gap' x value t, text = gap ++ ':' :: (gap' ++ (value ++ rest)) ∧ IsGap gap ∧ IsGap gap' ∧
        Item x value ∧ Push s (key, x) t ∧ found = some t)
    (hcomplete : ∀ {key s t x gap gap' value rest}, IsGap gap → IsGap gap' → Item x value →
      Push s (key, x) t → Delimited rest →
      behind s (some key) (gap ++ ':' :: (gap' ++ (value ++ rest))) = .ok (some t, rest))
    (hnext : ∀ {s e t}, Push s e t → first t = false) :
    Rounds (fun s => nextKey (first s) >>= behind s) first (EntryText StringText Item) Push '\x7d'
      ['\x7d'] where
  sound := by
    intro s t text rest hrun
    obtain ⟨found, between, hkey, hread⟩ := then_eq_ok_iff.mp hrun
    rcases nextKey_eq_ok_iff.mp hkey with ⟨_, _, -, -, -, rfl⟩ | ⟨lead, key, used, rfl, hlead, hused, rfl⟩
    · -- Without a key the round does not go on.
      rw [hend] at hread
      exact absurd (pure_eq_ok_iff.mp hread).1 (by simp)
    obtain ⟨gap, gap', x, value, t', rfl, hgap, hgap', hx, hpush, hfound⟩ := hsound hread
    obtain rfl := Option.some.inj hfound
    refine ⟨(key, x), lead, _, ?_, hlead, ⟨used, gap, gap', value, hused, hgap, hgap', hx, rfl⟩, hpush⟩
    simp
  complete := by
    rintro s t ⟨name, x⟩ lead used rest hlead hentry hpush hrest
    obtain ⟨key, gap, gap', value, hkey, hgap, hgap', hx, rfl⟩ := hentry
    refine then_eq_ok_iff.mpr ⟨some name, gap ++ ':' :: (gap' ++ (value ++ rest)), ?_, ?_⟩
    · exact nextKey_eq_ok_iff.mpr (.inr ⟨lead, name, key, by simp, hlead, hkey, rfl⟩)
    · exact hcomplete hgap hgap' hx hpush hrest
  last := by
    intro s text rest
    rw [then_eq_ok_iff]
    constructor
    · rintro ⟨found, between, hkey, hread⟩
      rcases nextKey_eq_ok_iff.mp hkey with ⟨gap, more, rfl, hgap, rfl, rfl⟩ | ⟨_, _, _, -, -, -, rfl⟩
      · rw [hend] at hread
        obtain ⟨-, rfl⟩ := pure_eq_ok_iff.mp hread
        exact ⟨gap, more, rfl, hgap, rfl⟩
      · -- With a key it does not end.
        obtain ⟨_, _, _, _, _, -, -, -, -, -, hfound⟩ := hsound hread
        exact absurd hfound (by simp)
    · rintro ⟨gap, more, rfl, hgap, rfl⟩
      exact ⟨none, _, nextKey_eq_ok_iff.mpr (.inl ⟨gap, more, rfl, hgap, rfl, rfl⟩), by rw [hend]; rfl⟩
  next := hnext
  nonempty := fun _ hentry => by
    obtain ⟨key, gap, gap', value, -, -, -, -, rfl⟩ := hentry
    simp
  closes := .inr rfl

/-- A round over the entries of an object takes a key and the value behind its colon. -/
theorem Exact.entries_rounds {item : Reader α} {G : α → List Char → Prop} (h : Exact item G) :
    Rounds (fun read => do
      match ← nextKey read.isEmpty with
      | some key =>
        colon
        return some ((key, ← item) :: read)
      | none => return none)
      List.isEmpty (EntryText StringText G) (fun read e next => next = e :: read) '\x7d' ['\x7d'] := by
  refine keyed_rounds (fun _ => rfl) (fun hrun => ?_) (fun hgap hgap' hx hpush hrest => ?_)
    fun hpush => ?_
  · obtain ⟨⟨⟩, after, hcolon, hvalue⟩ := then_eq_ok_iff.mp hrun
    obtain ⟨x, after', hitem, hnext⟩ := then_eq_ok_iff.mp hvalue
    obtain ⟨hfound, rfl⟩ := pure_eq_ok_iff.mp hnext
    obtain ⟨gap, rfl, hgap⟩ := colon_eq_ok_iff.mp hcolon
    obtain ⟨gap', value, rfl, hgap', hx⟩ := h.sound hitem
    exact ⟨gap, gap', x, value, _, rfl, hgap, hgap', hx, rfl, hfound.symm⟩
  · refine then_eq_ok_iff.mpr ⟨(), _, colon_eq_ok_iff.mpr ⟨_, rfl, hgap⟩, ?_⟩
    refine then_eq_ok_iff.mpr ⟨_, _, h.complete hgap' hx hrest, ?_⟩
    exact pure_eq_ok_iff.mpr ⟨congrArg some hpush.symm, rfl⟩
  · rw [hpush]
    rfl

/-- The entries of an object, behind its opening brace. -/
theorem Exact.entries_eq_ok_iff {item : Reader α} {G : α → List Char → Prop} (h : Exact item G)
    {es : List (String × α)} : entries item text = .ok (es, rest) ↔
      ∃ inner, text = inner ++ '\x7d' :: rest ∧ Sequence (EntryText StringText G) true es inner := by
  unfold entries
  exact h.entries_rounds.gathered_eq_ok_iff fun _ => rfl

end Reader

end QueryModule.Json
