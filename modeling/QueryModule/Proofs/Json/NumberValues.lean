import Mathlib.Tactic.Ring
import QueryModule.Proofs.Json.Numbers

/-!
# What numbers in JSON texts denote

The reader of a number gathers its digits, scales what it has gathered and says when the result is out of
range. Here this is compared with the grammar, part by part, and put together with where a number ends.

> `numberFrom_eq_ok_iff`: a number is read when its literal denotes one, and as this one.
-/

namespace QueryModule.Json

open QueryModule.Decimal (Magnitude)
open QueryModule.Text (natOfDigits)

variable {text rest digits whole fraction exponent : List Char} {significand s taken : Nat} {x : Magnitude}

/-! ## Significands -/

/-- The greatest significand is that of 64 bits. -/
theorem le_maxSignificand_iff {n : Nat} : n ≤ maxSignificand ↔ n < 2 ^ 64 := by
  show n ≤ 2 ^ 64 - 1 ↔ _
  omega

theorem natOfDigits_eq_ofDigitChars (digits : List Char) :
    natOfDigits digits = Nat.ofDigitChars 10 digits 0 :=
  Nat.ofDigitChars_eq_foldl.symm

/-- More digits make a significand no smaller. -/
theorem le_ofDigitChars (digits : List Char) (before : Nat) :
    before ≤ Nat.ofDigitChars 10 digits before := by
  induction digits generalizing before with
  | nil => exact Nat.le_refl before
  | cons d digits ih =>
    rw [Nat.ofDigitChars_cons]
    exact Nat.le_trans (by omega) (ih _)

/-- What is accumulated is gathered. -/
theorem gathers_accumulate (digits : List Char) {before : Nat} (hbefore : before < 2 ^ 64) :
    Gathers before digits (accumulate before digits).1 (accumulate before digits).2 := by
  induction digits generalizing before with
  | nil => exact ⟨[], [], rfl, rfl, rfl, hbefore, nofun⟩
  | cons d digits ih =>
    rw [accumulate]
    dsimp only
    split
    next hfits =>
      obtain ⟨front, back, hdigits, htaken, hvalue, hlt, hback⟩ := ih (le_maxSignificand_iff.mp hfits)
      exact ⟨d :: front, back, congrArg _ hdigits, congrArg (· + 1) htaken, hvalue, hlt, hback⟩
    next hfits =>
      refine ⟨[], d :: digits, rfl, rfl, rfl, hbefore, fun d' hd => ?_⟩
      obtain rfl := Option.some.inj hd
      exact Nat.le_of_not_lt (mt le_maxSignificand_iff.mpr hfits)

/-- What is gathered is accumulated: no prefix of the digits has a greater significand than all of them. -/
theorem Gathers.accumulate_eq {before : Nat} (h : Gathers before digits significand taken) :
    accumulate before digits = (significand, taken) := by
  obtain ⟨front, back, rfl, rfl, rfl, hlt, hback⟩ := h
  induction front generalizing before with
  | nil =>
    cases back with
    | nil => rfl
    | cons d back =>
      have hbig := hback d rfl
      rw [Nat.ofDigitChars_nil] at hbig
      rw [List.nil_append, accumulate]
      dsimp only
      rw [if_neg (mt le_maxSignificand_iff.mp (Nat.not_lt.mpr hbig))]
      rfl
  | cons d front ih =>
    rw [Nat.ofDigitChars_cons] at hlt hback
    have hle := le_ofDigitChars front (10 * before + (d.toNat - '0'.toNat))
    rw [List.cons_append, accumulate]
    dsimp only
    rw [if_pos (le_maxSignificand_iff.mpr (Nat.lt_of_le_of_lt hle hlt)), ih hlt hback]
    rfl

/-- The digits of an integer that fits in 64 bits are all gathered. -/
theorem gathers_whole (h : natOfDigits whole < 2 ^ 64) :
    Gathers 0 whole (natOfDigits whole) whole.length :=
  ⟨whole, [], (List.append_nil whole).symm, rfl, natOfDigits_eq_ofDigitChars whole, h, nofun⟩

/-- Of an integer that does not fit some digits are left. -/
theorem Gathers.taken_lt (h : Gathers 0 whole significand taken) (hbig : 2 ^ 64 ≤ natOfDigits whole) :
    taken < whole.length := by
  obtain ⟨front, back, rfl, rfl, rfl, hlt, -⟩ := h
  cases back with
  | nil =>
    rw [List.append_nil, natOfDigits_eq_ofDigitChars] at hbig
    omega
  | cons d back => simp

/-! ## Floats -/

theorem powerOfTen_eq (places : Nat) : powerOfTen places = .ofRatio (10 ^ places) 1 := rfl

/-- Zero stays zero, whatever it is divided by. -/
theorem zero_div (y : Magnitude) : Magnitude.zero.div y = .zero := by
  unfold Magnitude.div
  cases y.toRatio? with
  | none => rfl
  | some ratio =>
    show Magnitude.ofRatio (0 * ratio.2) _ = .zero
    rw [Nat.zero_mul]
    rfl

theorem divideByPower_zero (places : Nat) : divideByPower .zero places = .zero := by
  rw [divideByPower]
  split
  · exact zero_div _
  · rfl

theorem divided_zero (places : Nat) : Divided .zero places .zero := by
  induction places using Nat.strongRecOn with
  | ind places ih =>
    by_cases hplaces : places ≤ 308
    · have hlast := Divided.last (x := .zero) hplaces
      rwa [zero_div] at hlast
    · refine .step (Nat.lt_of_not_le hplaces) ?_
      rw [zero_div]
      exact ih _ (by omega)

/-- It is divided by a power of ten in steps, of which a zero needs none. -/
theorem divideByPower_eq_iff {places : Nat} {y : Magnitude} :
    divideByPower x places = y ↔ Divided x places y := by
  constructor
  · rintro rfl
    fun_induction divideByPower x places with
    | case1 x places hplaces =>
      rw [powerOfTen_eq]
      exact .last hplaces
    | case2 places hplaces => exact divided_zero places
    | case3 x places hplaces _ ih =>
      rw [powerOfTen_eq] at ih ⊢
      exact .step (Nat.lt_of_not_le hplaces) ih
  · intro h
    induction h with
    | last hplaces => rw [divideByPower, if_pos hplaces, powerOfTen_eq]
    | step hplaces _ ih =>
      rw [divideByPower, if_neg (Nat.not_le.mpr hplaces), powerOfTen_eq]
      split
      next hzero =>
        rw [← ih, hzero, zero_div, divideByPower_zero]
      next => exact ih

/-- A significand is scaled exactly when the float is in range. -/
theorem scale_eq_ok_iff {places : Int} : scale significand places = .ok x ↔ Scaled significand places x := by
  constructor
  · intro h
    unfold scale at h
    dsimp only at h
    split at h
    next e =>
      split at h
      -- Zero is zero in every power.
      next hzero =>
        rw [← Except.ok.inj h, hzero]
        exact .zero rfl
      next hzero =>
        split at h
        next => nomatch h
        next hplaces =>
          split at h
          next => nomatch h
          -- The product has been found finite.
          next y hy =>
            obtain rfl := Except.ok.inj h
            exact .up hzero (Nat.le_of_not_lt hplaces) rfl hy
    -- Below one, the quotient is never infinite.
    next e =>
      exact .down (Nat.succ_pos e) (divideByPower_eq_iff.mp (Except.ok.inj h))
  · intro h
    cases h with
    | zero hzero =>
      rw [hzero]
      rfl
    | @up places _ hzero hplaces hx hfinite =>
      show (if significand = 0 then _ else if places > 308 then _ else _) = _
      rw [if_neg hzero, if_neg (Nat.not_lt.mpr hplaces), powerOfTen_eq, hx]
      cases x with
      | infinite => exact absurd rfl hfinite
      | finite => rfl
    | @down places _ hplaces hdivided =>
      obtain ⟨e, rfl⟩ := Nat.exists_eq_add_one_of_ne_zero hplaces.ne'
      rw [← divideByPower_eq_iff.mpr hdivided]
      rfl

/-- An exponent that is not too great is one of 31 bits. -/
theorem lt_of_not_gt_maxExponent {n : Nat} : ¬ n > maxExponent ↔ n < 2 ^ 31 := by
  show ¬ 2 ^ 31 - 1 < n ↔ _
  omega

/-- It is shifted by a written exponent exactly when the float that comes of both is in range. -/
theorem shift_eq_ok_iff {places : Int} {down : Bool} {written : Nat} :
    shift significand places down written = .ok x ↔ Shifted significand places down written x := by
  unfold shift
  -- Exponents beyond 31 bits are not calculated with: the float is zero, or out of range.
  by_cases hfar : written > maxExponent
  · have hbound : 2 ^ 31 ≤ written := Nat.le_of_not_lt fun h => lt_of_not_gt_maxExponent.mpr h hfar
    rw [if_pos hfar]
    constructor
    · intro h
      split at h
      next => nomatch h
      next hlost =>
        rw [← Except.ok.inj h]
        refine .far hbound ?_
        by_contra hnone
        exact hlost (by simpa [not_or] using hnone)
    · intro h
      cases h with
      | near hnear => exact absurd hnear (Nat.not_lt.mpr hbound)
      | far _ hlost =>
        rw [if_neg]
        rcases hlost with rfl | rfl <;> simp
  · have hbound : written < 2 ^ 31 := lt_of_not_gt_maxExponent.mp hfar
    rw [if_neg hfar, scale_eq_ok_iff]
    constructor
    · exact .near hbound
    · intro h
      cases h with
      | near _ hscaled => exact hscaled
      | far hfar => exact absurd hbound (Nat.not_lt.mpr hfar)

/-- An exponent has a sign and a size. -/
theorem IsExponent.exists_text (h : IsExponent exponent) :
    ∃ down written, ExponentText down written exponent := by
  cases h with
  | none => exact ⟨false, 0, .none⟩
  | some hmark hsign hdigits => exact ⟨_, _, .some hmark hsign hdigits⟩

/-- What is read behind the fraction is the float that its exponent makes of the significand. -/
theorem floatFrom_eq_ok_iff {places : Int} {down : Bool} {written : Nat}
    (hexponent : ExponentText down written exponent) :
    floatFrom significand places exponent = .ok (x, []) ↔ Shifted significand places down written x := by
  rw [← shift_eq_ok_iff]
  cases hexponent with
  | none =>
    have hscale : shift significand places false 0 = scale significand places := by
      rw [shift, if_neg (by decide), if_neg (by decide)]
      simp
    rw [floatFrom, hscale, map_eq_ok]
    simp
  | @some mark sign digits hmark hsign hdigits =>
    have hfrom : exponentFrom significand places (sign ++ (digits ++ [])) = _ :=
      exponentFrom_append hsign hdigits rfl significand places
    rw [List.append_nil] at hfrom
    rw [floatFrom, if_pos hmark, hfrom, map_eq_ok]
    simp

/-! ## Numbers -/

/-- Unless a number is written as an integer that is gathered as a whole, it is a float. -/
theorem numberBehind_eq (hfraction : IsFraction fraction) (hexponent : IsExponent exponent)
    (negative : Bool) {dropped : Int} (hfloat : fraction = [] → exponent = [] → dropped ≠ 0) :
    numberBehind negative significand dropped (fraction ++ exponent) =
      (floatFrom (accumulate significand fraction.tail).1
        (dropped - (accumulate significand fraction.tail).2) exponent).map
          fun (x, after) => (.float ⟨negative, x⟩, after) := by
  have hnone : (accumulate significand [].tail) = (significand, 0) := rfl
  cases hfraction with
  | some hdigits =>
    -- A fraction goes on with the significand, and each of its digits counts as one place.
    have hends := delimited_nil.fractionEnds (.some hdigits) hexponent
    rw [List.append_nil] at hends
    rw [List.cons_append, numberBehind, if_pos rfl, spanDigits_append hdigits hends.digit]
    dsimp only
    rw [if_neg (by simp [hdigits.1]), List.tail_cons]
  | none =>
    rw [List.nil_append, hnone, Int.natCast_zero, Int.sub_zero]
    cases hexponent with
    | none =>
      -- An integer with digits that have been left out is a float.
      rw [numberBehind, plainNumber, if_pos (hfloat rfl rfl), floatFrom, map_map, map_map]
      rfl
    | @some mark sign digits hmark hsign hdigits =>
      have hpoint : mark ≠ '.' := by
        rintro rfl
        exact absurd hmark (by decide)
      rw [numberBehind, if_neg hpoint, if_pos hmark, floatFrom, if_pos hmark]

/-- A number is accumulated up to its fraction, and read on from there. -/
theorem numberFrom_parts (hwhole : IsWhole whole) (hfraction : IsFraction fraction)
    (hexponent : IsExponent exponent) (negative : Bool) :
    numberFrom negative (whole ++ (fraction ++ exponent)) =
      numberBehind negative (accumulate 0 whole).1 (whole.length - (accumulate 0 whole).2)
        (fraction ++ exponent) := by
  have hends := delimited_nil.fractionEnds hfraction hexponent
  rw [List.append_nil] at hends
  exact numberFrom_append hwhole hends.startsWithDigit_append negative

/-- A number that is written as an integer and gathered as a whole. -/
theorem numberFrom_whole (hwhole : IsWhole whole) (hfits : natOfDigits whole < 2 ^ 64) (negative : Bool) :
    numberFrom negative whole = (plainNumber negative (natOfDigits whole) 0).map (·, []) := by
  have hparts := numberFrom_parts hwhole .none .none negative
  rw [List.append_nil, List.append_nil, (gathers_whole hfits).accumulate_eq, Int.sub_self] at hparts
  exact hparts

/-- An integer that fits in 64 bits denotes what is read of it. -/
theorem unsignedText_of_plainNumber {negative : Bool} {n : Number} (hwhole : IsWhole whole)
    (hfits : natOfDigits whole < 2 ^ 64) :
    plainNumber negative (natOfDigits whole) 0 = .ok n → UnsignedText negative n whole := by
  intro h
  rw [plainNumber, if_neg (by decide)] at h
  cases negative with
  | false =>
    rw [if_pos (by decide)] at h
    rw [← Except.ok.inj h]
    exact .integer hwhole hfits
  | true =>
    rw [if_neg (by decide)] at h
    split at h
    next hrounded =>
      rw [← Except.ok.inj h]
      exact .rounded hwhole (by simpa using hrounded) hfits
    next hopposite =>
      rw [← Except.ok.inj h]
      have hbounds : natOfDigits whole ≠ 0 ∧ natOfDigits whole ≤ 2 ^ 63 := by simpa using hopposite
      exact .opposite hwhole (Nat.pos_of_ne_zero hbounds.1) hbounds.2

/-- What is read of a number is what it denotes. -/
theorem unsignedText_of_numberFrom {negative : Bool} {n : Number} (hwhole : IsWhole whole)
    (hfraction : IsFraction fraction) (hexponent : IsExponent exponent)
    (h : numberFrom negative (whole ++ (fraction ++ exponent)) = .ok (n, [])) :
    UnsignedText negative n (whole ++ (fraction ++ exponent)) := by
  -- An integer that fits in 64 bits is read as one; everything else is a float.
  by_cases hplain : natOfDigits whole < 2 ^ 64 ∧ fraction = [] ∧ exponent = []
  · obtain ⟨hfits, rfl, rfl⟩ := hplain
    rw [List.append_nil, List.append_nil] at h ⊢
    rw [numberFrom_whole hwhole hfits, map_eq_ok] at h
    obtain ⟨n', hn, heq⟩ := h
    rw [← (Prod.mk.inj heq).1]
    exact unsignedText_of_plainNumber hwhole hfits hn
  · have hbig : fraction = [] → exponent = [] → 2 ^ 64 ≤ natOfDigits whole := fun hf he =>
      Nat.le_of_not_lt fun hfits => hplain ⟨hfits, hf, he⟩
    have hgathers : Gathers 0 whole _ _ := gathers_accumulate whole (by decide)
    obtain ⟨down, written, hwritten⟩ := hexponent.exists_text
    rw [numberFrom_parts hwhole hfraction hexponent, numberBehind_eq hfraction hexponent] at h
    · obtain ⟨⟨x, after⟩, hx, heq⟩ := map_eq_ok.mp h
      obtain ⟨rfl, rfl⟩ := Prod.mk.inj heq
      obtain ⟨-, -, -, -, -, hlt, -⟩ := hgathers
      exact .float hwhole hfraction hwritten hbig (gathers_accumulate whole (by decide))
        (gathers_accumulate fraction.tail hlt) ((floatFrom_eq_ok_iff hwritten).mp hx)
    · intro hf he
      have := hgathers.taken_lt (hbig hf he)
      omega

/-- What a number denotes is read of it. -/
theorem numberFrom_of_unsignedText {negative : Bool} {n : Number} (h : UnsignedText negative n text) :
    numberFrom negative text = .ok (n, []) := by
  cases h with
  | integer hwhole hfits =>
    rw [numberFrom_whole hwhole hfits]
    rfl
  | opposite hwhole hpos hle =>
    rw [numberFrom_whole hwhole (by omega), plainNumber, if_neg (by decide), if_neg (by decide),
      if_neg (by simpa using ⟨hpos.ne', hle⟩)]
    rfl
  | rounded hwhole hrounded hfits =>
    rw [numberFrom_whole hwhole hfits, plainNumber, if_neg (by decide), if_neg (by decide),
      if_pos (by simpa using hrounded)]
    rfl
  | @float _ down whole fraction exponent x s s' taken taken' written hwhole hfraction hwritten hbig
      hgathers hgathers' hshifted =>
    have hexponent := IsExponent.of_text hwritten
    rw [numberFrom_parts hwhole hfraction hexponent, hgathers.accumulate_eq,
      numberBehind_eq hfraction hexponent, hgathers'.accumulate_eq,
      (floatFrom_eq_ok_iff hwritten).mpr hshifted]
    · rfl
    · intro hf he
      -- An integer that does not fit leaves digits behind.
      have := hgathers.taken_lt (hbig hf he)
      omega

/-- A number is read when its literal denotes one. -/
theorem numberFrom_eq_ok_iff {negative : Bool} {n : Number} :
    numberFrom negative text = .ok (n, rest) ↔
      ∃ used, text = used ++ rest ∧ Literal used rest ∧ UnsignedText negative n used := by
  rw [numberFrom_eq_ok_iff_alone]
  constructor
  · rintro ⟨used, htext, hliteral, hn⟩
    obtain ⟨whole, fraction, exponent, rfl, hwhole, hfraction, hexponent⟩ := hliteral.isUnsigned
    exact ⟨_, htext, hliteral, unsignedText_of_numberFrom hwhole hfraction hexponent hn⟩
  · rintro ⟨used, htext, hliteral, hn⟩
    exact ⟨used, htext, hliteral, numberFrom_of_unsignedText hn⟩

end QueryModule.Json
