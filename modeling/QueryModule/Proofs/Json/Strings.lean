import Mathlib.Data.List.Basic
import QueryModule.Proofs.Json.Grammar
import QueryModule.Proofs.Results

/-!
# Strings in JSON texts

Both readers of strings stop at the first mark that no escape has taken, so what they have passed over is
what the grammar allows between two marks, and the grammar leaves them no choice.

> `stringFrom_eq_ok_iff`: a string is read as the characters that its text spells.
> `skipStringFrom_eq_ok_iff`: a string that nobody asks for ends where its syntax says.
-/

namespace QueryModule.Json

open QueryModule.Text (hexDigit?)
open QueryModule.Text.Utf8 (byteSize)

variable {text rest : List Char} {x : Char} {n : Nat}

/-! ## Escapes -/

/-- A change of all items that succeeds keeps their number. -/
theorem length_of_mapM_eq_some {α β : Type} {f : α → Option β} {xs : List α} {ys : List β}
    (h : xs.mapM f = some ys) : ys.length = xs.length := by
  induction xs generalizing ys with
  | nil =>
    obtain rfl : [] = ys := Option.some.inj h
    rfl
  | cons x xs ih =>
    rw [List.mapM_cons] at h
    obtain ⟨y, -, h⟩ := Option.bind_eq_some_iff.mp h
    obtain ⟨ys', hys, h⟩ := Option.bind_eq_some_iff.mp h
    rw [← Option.some.inj h, List.length_cons, List.length_cons, ih hys]

theorem HexFour.length {four : List Char} (h : HexFour four n) : four.length = 4 := by
  obtain ⟨w, x, y, z, h, -⟩ := h
  exact (length_of_mapM_eq_some h).symm

/-- Every character takes a byte at least. -/
theorem length_le_byteSize (text : List Char) : text.length ≤ byteSize text := by
  induction text with
  | nil => exact Nat.le_refl 0
  | cons c text ih =>
    have := c.utf8Size_pos
    rw [List.length_cons, byteSize]
    omega

/-- Four hexadecimal digits are read where they stand. -/
theorem hexFour_eq_ok_iff :
    hexFour text = .ok n ↔ ∃ four rest, text = four ++ rest ∧ HexFour four n := by
  unfold hexFour
  constructor
  · intro h
    dsimp only at h
    split at h
    · exact absurd h (by simp)
    split at h
    · next w x y z hfour =>
      exact ⟨text.take 4, text.drop 4, (List.take_append_drop 4 text).symm, w, x, y, z, hfour,
        (Except.ok.inj h).symm⟩
    · exact absurd h (by simp)
  · rintro ⟨four, rest, rfl, hfour⟩
    -- What is counted are bytes, and there is at least one to a character.
    have hsize := length_le_byteSize four
    rw [List.take_left' hfour.length, if_neg (by have := hfour.length; omega)]
    obtain ⟨w, x, y, z, hmap, rfl⟩ := hfour
    rw [hmap]

/-- The escape of the second half of a pair. -/
theorem lowSurrogate_eq_ok_iff : lowSurrogate text = .ok n ↔
    ∃ four rest, text = '\\' :: 'u' :: four ++ rest ∧ HexFour four n ∧ isLowSurrogate n = true := by
  constructor
  · intro h
    unfold lowSurrogate at h
    split at h
    · exact absurd h (by simp)
    · split at h
      · exact absurd h (by simp)
      · next rest =>
        obtain ⟨m, hm, h⟩ := bind_eq_ok.mp h
        split at h
        · next hlow =>
          obtain rfl : m = n := Except.ok.inj h
          obtain ⟨four, after, rfl, hfour⟩ := hexFour_eq_ok_iff.mp hm
          exact ⟨four, after, rfl, hfour, hlow⟩
        · exact absurd h (by simp [throw, throwThe, MonadExceptOf.throw])
      · exact absurd h (by simp)
    · exact absurd h (by simp)
  · rintro ⟨four, rest, rfl, hfour, hlow⟩
    refine bind_eq_ok.mpr ⟨n, hexFour_eq_ok_iff.mpr ⟨four, rest, rfl, hfour⟩, ?_⟩
    rw [if_pos hlow]
    rfl

/-- No code is both halves of a pair. -/
theorem not_isHighSurrogate (h : isLowSurrogate n = true) : isHighSurrogate n = false := by
  unfold isLowSurrogate at h
  unfold isHighSurrogate
  simp only [Bool.and_eq_true, decide_eq_true_eq, Bool.and_eq_false_iff, decide_eq_false_iff_not] at *
  omega

theorem simpleEscape?_u : simpleEscape? 'u' = none := by decide

/-- A numeric escape takes the characters behind the `u`. -/
theorem numberedEscape_eq_ok_iff : numberedEscape text = .ok (x, n) ↔
    ∃ used rest, text = used ++ rest ∧ Escaped x ('u' :: used) ∧ n = used.length := by
  constructor
  · intro h
    obtain ⟨m, hm, h⟩ := bind_eq_ok.mp h
    obtain ⟨four, rest, rfl, hfour⟩ := hexFour_eq_ok_iff.mp hm
    cases hlow : isLowSurrogate m with
    | true =>
      rw [hlow] at h
      exact absurd h (by simp [throw, throwThe, MonadExceptOf.throw, bind, Except.bind])
    | false =>
      cases hhigh : isHighSurrogate m with
      | false =>
        simp only [hlow, hhigh] at h
        obtain ⟨rfl, rfl⟩ := Prod.mk.inj (Except.ok.inj h)
        exact ⟨four, rest, rfl, .numbered hfour hhigh hlow, hfour.length.symm⟩
      | true =>
        simp only [hlow, hhigh] at h
        obtain ⟨low, hsecond, h⟩ := bind_eq_ok.mp h
        obtain ⟨rfl, rfl⟩ := Prod.mk.inj (Except.ok.inj h)
        rw [List.drop_left' hfour.length] at hsecond
        obtain ⟨four', rest', rfl, hfour', hlow'⟩ := lowSurrogate_eq_ok_iff.mp hsecond
        refine ⟨four ++ '\\' :: 'u' :: four', rest', by simp, .pair hfour hhigh hfour' hlow', ?_⟩
        simp [hfour.length, hfour'.length]
  · rintro ⟨used, rest, rfl, hescaped, rfl⟩
    cases hescaped with
    | simple h => exact absurd h (by simp [simpleEscape?_u])
    | numbered hfour hhigh hlow =>
      refine bind_eq_ok.mpr ⟨_, hexFour_eq_ok_iff.mpr ⟨used, rest, rfl, hfour⟩, ?_⟩
      simp only [hlow, hhigh, hfour.length]
      rfl
    | @pair four four' high low hfour hhigh hfour' hlow =>
      -- The reader asks first whether this is a second half, which no first half is.
      have hfirst : isLowSurrogate high = false := by
        cases h : isLowSurrogate high with
        | false => rfl
        | true => exact absurd (not_isHighSurrogate h) (by simp [hhigh])
      have hsecond : lowSurrogate (((four ++ '\\' :: 'u' :: four') ++ rest).drop 4) = .ok low := by
        refine lowSurrogate_eq_ok_iff.mpr ⟨four', rest, ?_, hfour', hlow⟩
        rw [List.append_assoc, List.drop_left' hfour.length, List.cons_append, List.cons_append]
      refine bind_eq_ok.mpr ⟨high, hexFour_eq_ok_iff.mpr ⟨four, _, List.append_assoc .., hfour⟩, ?_⟩
      simp only [hfirst, hhigh]
      refine bind_eq_ok.mpr ⟨low, hsecond, ?_⟩
      simp [hfour.length, hfour'.length, pure, Except.pure]

/-- An escape is read exactly when the text starts with one that denotes a character, and with the
length that it has. -/
theorem escape_eq_ok_iff : escape text = .ok (x, n) ↔
    ∃ used rest, text = used ++ rest ∧ Escaped x used ∧ n = used.length := by
  cases text with
  | nil =>
    refine ⟨nofun, ?_⟩
    rintro ⟨used, rest, h, hescaped, -⟩
    obtain ⟨rfl, -⟩ := List.append_eq_nil_iff.mp h.symm
    cases hescaped
  | cons c text =>
    unfold escape
    dsimp only
    by_cases hu : c = 'u'
    · subst hu
      rw [if_pos rfl]
      constructor
      · intro h
        obtain ⟨⟨x', m⟩, hm, h⟩ := map_eq_ok.mp h
        obtain ⟨rfl, rfl⟩ := Prod.mk.inj h
        obtain ⟨used, rest, rfl, hescaped, rfl⟩ := numberedEscape_eq_ok_iff.mp hm
        exact ⟨'u' :: used, rest, rfl, hescaped, rfl⟩
      · rintro ⟨used, rest, h, hescaped, rfl⟩
        -- The letter has no meaning of its own, so that four digits have to follow.
        obtain ⟨used, rfl⟩ : ∃ more, used = 'u' :: more := by
          cases hescaped with
          | simple hc =>
            obtain ⟨rfl, -⟩ := List.cons.inj h
            exact absurd hc (by simp [simpleEscape?_u])
          | numbered => exact ⟨_, rfl⟩
          | pair => exact ⟨_, rfl⟩
        obtain ⟨-, rfl⟩ := List.cons.inj h
        exact map_eq_ok.mpr ⟨_, numberedEscape_eq_ok_iff.mpr ⟨used, rest, rfl, hescaped, rfl⟩, rfl⟩
    · rw [if_neg hu]
      constructor
      · intro h
        split at h
        · next x' hx =>
          obtain ⟨rfl, rfl⟩ := Prod.mk.inj (Except.ok.inj h)
          exact ⟨[c], text, rfl, .simple hx, rfl⟩
        · exact absurd h (by simp)
      · rintro ⟨used, rest, h, hescaped, rfl⟩
        cases hescaped with
        | simple hc =>
          obtain ⟨rfl, -⟩ := List.cons.inj h
          rw [hc]
          rfl
        | numbered => exact absurd (List.cons.inj h).1 hu
        | pair => exact absurd (List.cons.inj h).1 hu

/-- It is passed over exactly when the text starts with one, whether or not it denotes anything. -/
theorem escapeLength_eq_ok_iff : escapeLength text = .ok n ↔
    ∃ used rest, text = used ++ rest ∧ IsEscape used ∧ n = used.length := by
  cases text with
  | nil =>
    refine ⟨nofun, ?_⟩
    rintro ⟨used, rest, h, hescape, -⟩
    obtain ⟨rfl, -⟩ := List.append_eq_nil_iff.mp h.symm
    cases hescape
  | cons c text =>
    unfold escapeLength
    dsimp only
    -- Only a numeric escape is longer than one character.
    by_cases hu : c = 'u'
    · subst hu
      rw [if_pos rfl]
      constructor
      · intro h
        obtain ⟨m, hm, rfl⟩ := map_eq_ok.mp h
        obtain ⟨four, rest, rfl, hfour⟩ := hexFour_eq_ok_iff.mp hm
        exact ⟨'u' :: four, rest, rfl, .numbered hfour, by rw [List.length_cons, hfour.length]⟩
      · rintro ⟨used, rest, h, hescape, rfl⟩
        cases hescape with
        | simple hc =>
          obtain ⟨rfl, -⟩ := List.cons.inj h
          exact absurd hc (by simp [simpleEscape?_u])
        | numbered hfour =>
          obtain ⟨-, rfl⟩ := List.cons.inj h
          refine map_eq_ok.mpr ⟨_, hexFour_eq_ok_iff.mpr ⟨_, rest, rfl, hfour⟩, ?_⟩
          rw [List.length_cons, hfour.length]
    · rw [if_neg hu]
      constructor
      · intro h
        split at h
        · next hc =>
          obtain ⟨x, hx⟩ := Option.isSome_iff_exists.mp hc
          exact ⟨[c], text, rfl, .simple hx, (Except.ok.inj h).symm⟩
        · exact absurd h (by simp)
      · rintro ⟨used, rest, h, hescape, rfl⟩
        cases hescape with
        | simple hc =>
          obtain ⟨rfl, -⟩ := List.cons.inj h
          rw [hc]
          rfl
        | numbered => exact absurd (List.cons.inj h).1 hu

/-! ## Whole strings -/

/-- What spells some characters is read as these, up to the mark. -/
theorem Spelled.stringFrom_append {s body : List Char} (h : Spelled s body) (rest : List Char) :
    stringFrom (body ++ '"' :: rest) = .ok (s, rest) := by
  induction h with
  | nil =>
    rw [List.nil_append, stringFrom, if_pos rfl]
  | @plain c s body hc _ ih =>
    rw [List.cons_append, stringFrom, if_neg hc.1, if_neg hc.2.1, if_neg (Nat.not_lt.mpr hc.2.2), ih]
    rfl
  | @escape x s used body hescaped _ ih =>
    rw [List.append_assoc, List.cons_append, stringFrom, if_neg (by decide), if_pos rfl,
      escape_eq_ok_iff.mpr ⟨used, _, rfl, hescaped, rfl⟩]
    dsimp only
    rw [List.drop_left, ih]
    rfl

/-- A string is read exactly when its body spells some characters. -/
theorem stringFrom_eq_ok_iff {s : List Char} : stringFrom text = .ok (s, rest) ↔
    ∃ body, text = body ++ '"' :: rest ∧ Spelled s body := by
  refine ⟨fun h => ?_, fun ⟨body, htext, h⟩ => htext ▸ h.stringFrom_append rest⟩
  fun_induction stringFrom text generalizing s with
  | case1 => exact absurd h (by simp)
  | case2 text =>
    obtain ⟨rfl, rfl⟩ := Prod.mk.inj (Except.ok.inj h)
    exact ⟨[], rfl, .nil⟩
  | case3 => exact absurd h (by simp)
  | case4 text x n hx _ ih =>
    obtain ⟨⟨s', after⟩, hs, h⟩ := map_eq_ok.mp h
    obtain ⟨rfl, rfl⟩ := Prod.mk.inj h
    obtain ⟨body, hbody, hspelled⟩ := ih hs
    obtain ⟨used, more, rfl, hescaped, rfl⟩ := escape_eq_ok_iff.mp hx
    rw [List.drop_left] at hbody
    refine ⟨'\\' :: used ++ body, ?_, .escape hescaped hspelled⟩
    rw [hbody, List.append_assoc, List.cons_append]
  | case5 => exact absurd h (by simp)
  | case6 c text hmark hbackslash hcontrol ih =>
    obtain ⟨⟨s', after⟩, hs, h⟩ := map_eq_ok.mp h
    obtain ⟨rfl, rfl⟩ := Prod.mk.inj h
    obtain ⟨body, rfl, hspelled⟩ := ih hs
    exact ⟨c :: body, rfl, .plain ⟨hmark, hbackslash, Nat.not_lt.mp hcontrol⟩ hspelled⟩

/-- What has the form of a body is passed over, up to the mark. -/
theorem IsStringBody.skipStringFrom_append {body : List Char} (h : IsStringBody body)
    (rest : List Char) : skipStringFrom (body ++ '"' :: rest) = .ok rest := by
  induction h with
  | nil =>
    rw [List.nil_append, skipStringFrom, if_pos rfl]
  | @plain c body hc _ ih =>
    rw [List.cons_append, skipStringFrom, if_neg hc.1, if_neg hc.2.1, if_neg (Nat.not_lt.mpr hc.2.2), ih]
  | @escape used body hescape _ ih =>
    rw [List.append_assoc, List.cons_append, skipStringFrom, if_neg (by decide), if_pos rfl,
      escapeLength_eq_ok_iff.mpr ⟨used, _, rfl, hescape, rfl⟩]
    dsimp only
    rw [List.drop_left, ih]

/-- A string is passed over exactly when its body has the form of one. -/
theorem skipStringFrom_eq_ok_iff : skipStringFrom text = .ok rest ↔
    ∃ body, text = body ++ '"' :: rest ∧ IsStringBody body := by
  refine ⟨fun h => ?_, fun ⟨body, htext, h⟩ => htext ▸ h.skipStringFrom_append rest⟩
  fun_induction skipStringFrom text with
  | case1 => exact absurd h (by simp)
  | case2 text =>
    obtain rfl := Except.ok.inj h
    exact ⟨[], rfl, .nil⟩
  | case3 => exact absurd h (by simp)
  | case4 text n hn _ ih =>
    obtain ⟨body, hbody, hwell⟩ := ih h
    obtain ⟨used, more, rfl, hescape, rfl⟩ := escapeLength_eq_ok_iff.mp hn
    rw [List.drop_left] at hbody
    refine ⟨'\\' :: used ++ body, ?_, .escape hescape hwell⟩
    rw [hbody, List.append_assoc, List.cons_append]
  | case5 => exact absurd h (by simp)
  | case6 c text hmark hbackslash hcontrol ih =>
    obtain ⟨body, rfl, hwell⟩ := ih h
    exact ⟨c :: body, rfl, .plain ⟨hmark, hbackslash, Nat.not_lt.mp hcontrol⟩ hwell⟩

end QueryModule.Json
