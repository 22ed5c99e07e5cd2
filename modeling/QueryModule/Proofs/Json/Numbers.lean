import Mathlib.Data.List.TakeDrop
import Mathlib.Data.List.TakeWhile
import QueryModule.Proofs.Json.Grammar
import QueryModule.Proofs.Results

/-!
# Numbers in JSON texts

A number has no mark at its end: its readers take as much of a text as can belong to it. `Literal` says so
of a number and of what follows it, and both readers are described by it. What the number is depends on its
literal alone, whatever follows.

> `skipNumberFrom_eq_ok_iff`: a number that nobody asks for ends where its literal does.
> `numberFrom_eq_ok_iff_alone`: and so does one that is asked for, as long as the literal alone has a
> value.
-/

namespace QueryModule.Json

open QueryModule.Decimal (Magnitude)
open QueryModule.Text (natOfDigits)

variable {text rest : List Char}

/-! ## Digits -/

/-- The longest run of characters of a kind ends where another one comes. -/
theorem span_eq_iff {p : Char → Bool} {front : List Char} : text.span p = (front, rest) ↔
    text = front ++ rest ∧ (∀ c ∈ front, p c = true) ∧ ∀ c ∈ rest.head?, p c = false := by
  rw [List.span_eq_takeWhile_dropWhile, Prod.mk.injEq]
  constructor
  · rintro ⟨rfl, rfl⟩
    refine ⟨List.takeWhile_append_dropWhile.symm, fun c hc => List.mem_takeWhile_imp hc, fun c hc => ?_⟩
    have hnot := List.head?_dropWhile_not p text
    rw [Option.mem_def.mp hc] at hnot
    exact hnot
  · rintro ⟨rfl, hfront, hrest⟩
    rw [List.takeWhile_append_of_pos hfront, List.dropWhile_append_of_pos hfront]
    cases rest with
    | nil => simp
    | cons c rest =>
      have hc : ¬p c = true := by simp [hrest c rfl]
      rw [List.takeWhile_cons_of_neg hc, List.dropWhile_cons_of_neg hc, List.append_nil]
      exact ⟨rfl, rfl⟩

/-- What does not start with a digit is empty or starts with something else. -/
theorem startsWithDigit_eq_false_iff :
    startsWithDigit text = false ↔ ∀ c ∈ text.head?, c.isDigit = false := by
  cases text with
  | nil => exact ⟨nofun, fun _ => rfl⟩
  | cons c text => exact ⟨fun h _ hc => Option.some.inj hc ▸ h, fun h => h c rfl⟩

/-- Digits, if there are any, and what follows them. -/
theorem spanDigits_eq_iff {digits : List Char} : spanDigits text = (digits, rest) ↔
    text = digits ++ rest ∧ (∀ c ∈ digits, c.isDigit = true) ∧ startsWithDigit rest = false := by
  rw [startsWithDigit_eq_false_iff]
  exact span_eq_iff

theorem startsWithDigit_append {digits : List Char} (h : IsDigits digits) :
    startsWithDigit (digits ++ rest) = true := by
  obtain ⟨c, digits, rfl⟩ := List.exists_cons_of_ne_nil h.1
  exact h.2 c (List.mem_cons_self ..)

theorem isEmpty_append {digits : List Char} (h : IsDigits digits) : (digits ++ rest).isEmpty = false := by
  obtain ⟨c, digits, rfl⟩ := List.exists_cons_of_ne_nil h.1
  rfl

theorem spanDigits_append {digits : List Char} (h : IsDigits digits)
    (hrest : startsWithDigit rest = false) :
    spanDigits (digits ++ rest) = (digits, rest) :=
  spanDigits_eq_iff.mpr ⟨rfl, h.2, hrest⟩

/-- A text that starts with a digit is digits and what follows them. -/
theorem exists_digits (h : startsWithDigit text = true) :
    ∃ digits rest, text = digits ++ rest ∧ IsDigits digits ∧ startsWithDigit rest = false := by
  obtain ⟨htext, hdigits, hrest⟩ := spanDigits_eq_iff.mp (rfl : spanDigits text = _)
  refine ⟨_, _, htext, ⟨fun hnil => ?_, hdigits⟩, hrest⟩
  rw [hnil, List.nil_append] at htext
  rw [htext, hrest] at h
  exact absurd h (by simp)

/-! ## Exponents -/

/-- A text may have a sign in front of it, which is found. -/
theorem exists_sign (text : List Char) :
    ∃ sign rest, text = sign ++ rest ∧ IsSign sign ∧ spanSign text = (decide (sign = ['-']), rest) := by
  unfold spanSign
  split
  · exact ⟨['+'], _, rfl, .plus, by simp⟩
  · exact ⟨['-'], _, rfl, .minus, by simp⟩
  · exact ⟨[], _, rfl, .none, by simp⟩

/-- The sign in front of digits is taken. -/
theorem spanSign_append {sign digits : List Char} (h : IsSign sign) (hdigits : IsDigits digits) :
    spanSign (sign ++ (digits ++ rest)) = (decide (sign = ['-']), digits ++ rest) := by
  cases h with
  | plus => simp [spanSign]
  | minus => simp [spanSign]
  | none =>
    obtain ⟨c, digits, rfl⟩ := List.exists_cons_of_ne_nil hdigits.1
    have hc : c.isDigit = true := hdigits.2 c (List.mem_cons_self ..)
    unfold spanSign
    split
    · next heq => rw [(List.cons.inj heq).1] at hc; exact absurd hc (by decide)
    · next heq => rw [(List.cons.inj heq).1] at hc; exact absurd hc (by decide)
    · simp

/-- An exponent is read from its sign and its digits, and shifts the float. -/
theorem exponentFrom_append {sign digits : List Char} (hsign : IsSign sign) (hdigits : IsDigits digits)
    (hrest : startsWithDigit rest = false) (significand : Nat) (exponent : Int) :
    exponentFrom significand exponent (sign ++ (digits ++ rest))
      = (shift significand exponent (decide (sign = ['-'])) (natOfDigits digits)).map (·, rest) := by
  unfold exponentFrom
  rw [spanSign_append hsign hdigits]
  dsimp only
  rw [isEmpty_append hdigits, startsWithDigit_append hdigits, spanDigits_append hdigits hrest]
  rfl

/-- What follows the exponent of a number cannot belong to it; nor could it if there is none. -/
structure ExponentEnds (exponent rest : List Char) : Prop where
  form : IsExponent exponent
  digit : startsWithDigit rest = false
  mark : exponent = [] → ∀ c ∈ rest.head?, isExponentMark c = false

theorem ExponentEnds.nil : ExponentEnds [] [] := ⟨.none, rfl, by simp⟩

/-- Without an exponent, neither a digit nor its mark may follow. -/
theorem ExponentEnds.of_not_mark {c : Char} (hdigit : startsWithDigit (c :: rest) = false)
    (hmark : ¬isExponentMark c = true) : ExponentEnds [] (c :: rest) :=
  ⟨.none, hdigit, fun _ _ hc => Option.some.inj hc ▸ Bool.eq_false_iff.mpr hmark⟩

/-- An exponent is passed over, if there is one, up to where it ends. -/
theorem skipExponent_eq_ok_iff (hdigit : startsWithDigit text = false) :
    skipExponent text = .ok rest ↔ ∃ exponent, text = exponent ++ rest ∧ ExponentEnds exponent rest := by
  constructor
  · intro h
    unfold skipExponent at h
    split at h
    · obtain rfl := Except.ok.inj h
      exact ⟨[], rfl, .nil⟩
    · next c more =>
      split at h
      · -- Behind the mark there is a sign, if any, and there have to be digits.
        next hmark =>
        obtain ⟨sign, after, rfl, hsign, hspan⟩ := exists_sign more
        rw [hspan] at h
        dsimp only at h
        split at h
        · next hstart =>
          obtain ⟨digits, rest', rfl, hdigits, hrest⟩ := exists_digits hstart
          rw [spanDigits_append hdigits hrest] at h
          obtain rfl := Except.ok.inj h
          refine ⟨c :: (sign ++ digits), by simp, .some hmark hsign hdigits, hrest, fun hnil => ?_⟩
          exact absurd hnil (by simp)
        · exact absurd h (by simp)
      · next hmark =>
        obtain rfl := Except.ok.inj h
        exact ⟨[], rfl, .of_not_mark hdigit hmark⟩
  · rintro ⟨exponent, rfl, hform, hrest, hmark⟩
    cases hform with
    | none =>
      -- What follows has no mark, so that nothing is passed over.
      cases rest with
      | nil => rfl
      | cons c rest =>
        rw [List.nil_append, skipExponent, if_neg (by simp [hmark rfl c rfl])]
    | some hc hsign hdigits =>
      rw [List.cons_append, List.append_assoc, skipExponent, if_pos hc, spanSign_append hsign hdigits]
      dsimp only
      rw [if_pos (startsWithDigit_append hdigits), spanDigits_append hdigits hrest]

/-- The float depends on its exponent alone. -/
theorem floatFrom_append {exponent : List Char} (h : IsExponent exponent) (significand : Nat)
    (places : Int) : ∃ x : Except JsonError Magnitude, ∀ rest, ExponentEnds exponent rest →
      floatFrom significand places (exponent ++ rest) = x.map (·, rest) := by
  cases h with
  | none =>
    refine ⟨scale significand places, fun rest hends => ?_⟩
    cases rest with
    | nil => rfl
    | cons c rest =>
      rw [List.nil_append, floatFrom, if_neg (by simp [hends.mark rfl c rfl])]
  | @some mark sign digits hmark hsign hdigits =>
    refine ⟨shift significand places (decide (sign = ['-'])) (natOfDigits digits), fun rest hends => ?_⟩
    rw [List.cons_append, List.append_assoc, floatFrom, if_pos hmark,
      exponentFrom_append hsign hdigits hends.digit]

/-- Where reading the exponent of a float succeeds there is one, and it ends where reading does. -/
theorem exponentEnds_of_exponentFrom {c : Char} {significand : Nat} {places : Int} {x : Magnitude}
    (hmark : isExponentMark c = true) (h : exponentFrom significand places text = .ok (x, rest)) :
    ∃ exponent, c :: text = exponent ++ rest ∧ ExponentEnds exponent rest := by
  unfold exponentFrom at h
  obtain ⟨sign, after, rfl, hsign, hspan⟩ := exists_sign text
  rw [hspan] at h
  dsimp only at h
  split at h
  · exact absurd h (by simp)
  split at h
  · exact absurd h (by simp)
  next hstart =>
  rw [Bool.not_eq_true, Bool.not_eq_false'] at hstart
  obtain ⟨digits, rest', rfl, hdigits, hrest⟩ := exists_digits hstart
  rw [spanDigits_append hdigits hrest] at h
  obtain ⟨x', -, hx⟩ := map_eq_ok.mp h
  obtain ⟨-, rfl⟩ := Prod.mk.inj hx
  refine ⟨c :: (sign ++ digits), by simp, .some hmark hsign hdigits, hrest, fun hnil => ?_⟩
  exact absurd hnil (by simp)

/-- The same where the exponent may be absent. -/
theorem exponentEnds_of_floatFrom {significand : Nat} {places : Int} {x : Magnitude}
    (hdigit : startsWithDigit text = false) (h : floatFrom significand places text = .ok (x, rest)) :
    ∃ exponent, text = exponent ++ rest ∧ ExponentEnds exponent rest := by
  unfold floatFrom at h
  split at h
  · obtain ⟨_, -, heq⟩ := map_eq_ok.mp h
    obtain ⟨-, rfl⟩ := Prod.mk.inj heq
    exact ⟨[], rfl, .nil⟩
  · split at h
    · next hmark => exact exponentEnds_of_exponentFrom hmark h
    · next hmark =>
      obtain ⟨_, -, heq⟩ := map_eq_ok.mp h
      obtain ⟨-, rfl⟩ := Prod.mk.inj heq
      exact ⟨[], rfl, .of_not_mark hdigit hmark⟩

/-! ## Fractions -/

/-- What follows the fraction of a number cannot belong to it; nor could it if there is none. -/
structure FractionEnds (fraction rest : List Char) : Prop where
  form : IsFraction fraction
  digit : startsWithDigit rest = false
  point : fraction = [] → ∀ c ∈ rest.head?, c ≠ '.'

/-- In front of a fraction there are no further digits. -/
theorem FractionEnds.startsWithDigit_append {fraction : List Char} (h : FractionEnds fraction rest) :
    startsWithDigit (fraction ++ rest) = false := by
  cases h.form with
  | none => exact h.digit
  | some => rfl

theorem FractionEnds.nil : FractionEnds [] [] := ⟨.none, rfl, by simp⟩

/-- Without a fraction, neither a digit nor a point may follow. -/
theorem FractionEnds.of_not_point {c : Char} (hdigit : startsWithDigit (c :: rest) = false)
    (hpoint : c ≠ '.') : FractionEnds [] (c :: rest) :=
  ⟨.none, hdigit, fun _ _ hc => Option.some.inj hc ▸ hpoint⟩

/-- A fraction is passed over, if there is one, up to where it ends. -/
theorem skipFraction_eq_ok_iff (hdigit : startsWithDigit text = false) :
    skipFraction text = .ok rest ↔ ∃ fraction, text = fraction ++ rest ∧ FractionEnds fraction rest := by
  constructor
  · intro h
    unfold skipFraction at h
    split at h
    · obtain rfl := Except.ok.inj h
      exact ⟨[], rfl, .nil⟩
    · next c more =>
      split at h
      · -- Behind the point there have to be digits.
        next hpoint =>
        subst hpoint
        split at h
        · next hstart =>
          obtain ⟨digits, rest', rfl, hdigits, hrest⟩ := exists_digits hstart
          rw [spanDigits_append hdigits hrest] at h
          obtain rfl := Except.ok.inj h
          exact ⟨'.' :: digits, rfl, .some hdigits, hrest, fun hnil => absurd hnil (by simp)⟩
        · exact absurd h (by simp)
      · next hpoint =>
        obtain rfl := Except.ok.inj h
        exact ⟨[], rfl, .of_not_point hdigit hpoint⟩
  · rintro ⟨fraction, rfl, hform, hrest, hpoint⟩
    cases hform with
    | none =>
      -- What follows has no point, so that nothing is passed over.
      cases rest with
      | nil => rfl
      | cons c rest => rw [List.nil_append, skipFraction, if_neg (hpoint rfl c rfl)]
    | some hdigits =>
      rw [List.cons_append, skipFraction, if_pos rfl, if_pos (startsWithDigit_append hdigits),
        spanDigits_append hdigits hrest]

/-! ## Literals -/

/-- What follows the parts of a number cannot belong to them. -/
structure LiteralEnds (whole fraction exponent rest : List Char) : Prop where
  whole : IsWhole whole
  fraction : FractionEnds fraction (exponent ++ rest)
  exponent : ExponentEnds exponent rest

/-- The text is a number without a sign, and what follows it cannot belong to it. -/
def Literal (used rest : List Char) : Prop :=
  ∃ whole fraction exponent, used = whole ++ (fraction ++ exponent) ∧
    LiteralEnds whole fraction exponent rest

/-- What can follow a value: nothing, or what belongs to the lists and objects around it. -/
def Delimited (rest : List Char) : Prop :=
  ∀ c ∈ rest.head?, isSpace c = true ∨ c = ',' ∨ c = ']' ∨ c = '\x7d'

/-- A literal is a number without a sign. -/
theorem Literal.isUnsigned {used : List Char} (h : Literal used rest) : IsUnsigned used := by
  obtain ⟨whole, fraction, exponent, rfl, hends⟩ := h
  exact ⟨whole, fraction, exponent, rfl, hends.whole, hends.fraction.form, hends.exponent.form⟩

/-- What follows a value starts with white space, a comma or a closing bracket and with nothing else. -/
theorem Delimited.ne {c x : Char} (h : Delimited (c :: rest)) (hx : isSpace x = false)
    (hx' : x ≠ ',' ∧ x ≠ ']' ∧ x ≠ '\x7d') : c ≠ x := by
  rintro rfl
  rcases h c rfl with hc | hc | hc | hc
  · exact absurd hc (by simp [hx])
  · exact hx'.1 hc
  · exact hx'.2.1 hc
  · exact hx'.2.2 hc

/-- So it does not start with a digit. -/
theorem Delimited.startsWithDigit (h : Delimited rest) : startsWithDigit rest = false := by
  cases rest with
  | nil => rfl
  | cons c rest =>
    refine Bool.eq_false_iff.mpr fun hc => ?_
    have hbounds := Char.isDigit_iff_toNat.mp hc
    rcases h c rfl with hspace | rfl | rfl | rfl
    · unfold isSpace at hspace
      simp only [Bool.or_eq_true, beq_iff_eq] at hspace
      rcases hspace with ((rfl | rfl) | rfl) | rfl <;> revert hbounds <;> decide
    all_goals exact absurd hbounds (by decide)

/-- The exponent of a value that is followed by such a text ends with it. -/
theorem Delimited.exponentEnds {exponent : List Char} (h : Delimited rest) (hform : IsExponent exponent) :
    ExponentEnds exponent rest := by
  refine ⟨hform, h.startsWithDigit, fun _ c hc => ?_⟩
  obtain ⟨rest, rfl⟩ := List.head?_eq_some_iff.mp hc
  unfold isExponentMark
  rw [Bool.or_eq_false_iff, beq_eq_false_iff_ne, beq_eq_false_iff_ne]
  exact ⟨h.ne (by decide) (by decide), h.ne (by decide) (by decide)⟩

/-- The fraction ends with it, too, whatever exponent is behind it. -/
theorem Delimited.fractionEnds {fraction exponent : List Char} (h : Delimited rest)
    (hform : IsFraction fraction) (hexponent : IsExponent exponent) :
    FractionEnds fraction (exponent ++ rest) := by
  cases hexponent with
  | none =>
    refine ⟨hform, h.startsWithDigit, fun _ c hc => ?_⟩
    obtain ⟨rest, rfl⟩ := List.head?_eq_some_iff.mp hc
    exact h.ne (by decide) (by decide)
  | @some mark sign digits hmark hsign hdigits =>
    -- Here the fraction is followed by the mark of the exponent, which is no digit and no point.
    unfold isExponentMark at hmark
    rw [Bool.or_eq_true, beq_iff_eq, beq_iff_eq] at hmark
    refine ⟨hform, ?_, fun _ c hc => ?_⟩
    · rcases hmark with rfl | rfl <;> rfl
    · obtain rfl : mark = c := Option.some.inj hc
      rcases hmark with rfl | rfl <;> decide

/-- A number that is followed by such a text is a literal there. -/
theorem Delimited.literal {used : List Char} (h : Delimited rest) (hform : IsUnsigned used) :
    Literal used rest := by
  obtain ⟨whole, fraction, exponent, rfl, hwhole, hfraction, hexponent⟩ := hform
  exact ⟨whole, fraction, exponent, rfl, hwhole, h.fractionEnds hfraction hexponent,
    h.exponentEnds hexponent⟩

theorem delimited_nil : Delimited [] := nofun

/-! ## Numbers that nobody asks for -/

/-- Whole numbers have no zeros in front. -/
theorem IsWhole.zero {whole : List Char} (h : IsWhole whole) :
    (whole.head? = some '0' && decide (whole.length > 1)) = false := by
  by_cases hzero : whole.head? = some '0'
  · rw [h.2 hzero]
    rfl
  · simp [hzero]

/-- Digits without zeros in front are a whole number. -/
theorem isWhole_of_digits {digits : List Char} (h : IsDigits digits)
    (hzero : ¬(digits.head? = some '0' && decide (digits.length > 1)) = true) : IsWhole digits := by
  refine ⟨h, fun hhead => ?_⟩
  obtain ⟨more, rfl⟩ := List.head?_eq_some_iff.mp hhead
  cases more with
  | nil => rfl
  | cons c more => simp at hzero

/-- A number is passed over exactly when it is a literal: the longest one that the text starts with. -/
theorem skipNumberFrom_eq_ok_iff :
    skipNumberFrom text = .ok rest ↔ ∃ used, text = used ++ rest ∧ Literal used rest := by
  constructor
  · intro h
    unfold skipNumberFrom at h
    split at h
    · exact absurd h (by simp)
    next hstart =>
    rw [Bool.not_eq_true, Bool.not_eq_false'] at hstart
    -- The whole part, then the fraction and the exponent, each up to where it ends.
    obtain ⟨whole, after, rfl, hdigits, hafter⟩ := exists_digits hstart
    rw [spanDigits_append hdigits hafter] at h
    dsimp only at h
    split at h
    · exact absurd h (by simp)
    next hzero =>
    obtain ⟨after', hskip, hskip'⟩ := ok_of_bind_eq_ok h
    obtain ⟨fraction, rfl, hfraction⟩ := (skipFraction_eq_ok_iff hafter).mp hskip
    obtain ⟨exponent, rfl, hexponent⟩ := (skipExponent_eq_ok_iff hfraction.digit).mp hskip'
    exact ⟨whole ++ (fraction ++ exponent), by simp, whole, fraction, exponent, rfl,
      isWhole_of_digits hdigits hzero, hfraction, hexponent⟩
  · rintro ⟨_, rfl, whole, fraction, exponent, rfl, hwhole, hfraction, hexponent⟩
    rw [List.append_assoc, List.append_assoc]
    unfold skipNumberFrom
    rw [startsWithDigit_append hwhole.1, spanDigits_append hwhole.1 hfraction.startsWithDigit_append]
    dsimp only
    rw [hwhole.zero,
      (skipFraction_eq_ok_iff hfraction.startsWithDigit_append).mpr ⟨fraction, rfl, hfraction⟩]
    exact (skipExponent_eq_ok_iff hfraction.digit).mpr ⟨exponent, rfl, hexponent⟩

/-! ## Numbers that are asked for -/

/-- What is behind the whole part of a number decides by its literal alone: the result is there before
anything is said of what follows. -/
theorem numberBehind_append {fraction exponent : List Char} (hfraction : IsFraction fraction)
    (hexponent : IsExponent exponent) (negative : Bool) (significand : Nat) (dropped : Int) :
    ∃ n : Except JsonError Number, ∀ rest, FractionEnds fraction (exponent ++ rest) →
      ExponentEnds exponent rest →
      numberBehind negative significand dropped (fraction ++ (exponent ++ rest)) = n.map (·, rest) := by
  cases hfraction with
  | some hdigits =>
    -- With a fraction, its digits are accumulated and the exponent is read behind them.
    obtain ⟨x, hx⟩ := floatFrom_append hexponent (accumulate significand _).1
      (dropped - (accumulate significand _).2)
    refine ⟨x.map fun x => .float ⟨negative, x⟩, fun rest hfends hends => ?_⟩
    rw [List.cons_append, numberBehind, if_pos rfl, spanDigits_append hdigits hfends.digit]
    dsimp only
    rw [if_neg (by simp [hdigits.1]), hx rest hends, map_map, map_map]
    rfl
  | none =>
    cases hexponent with
    | none =>
      -- With neither, the number is an integer where this fits.
      refine ⟨plainNumber negative significand dropped, fun rest hfends hends => ?_⟩
      cases rest with
      | nil => rfl
      | cons c rest =>
        rw [List.nil_append, List.nil_append, numberBehind, if_neg (hfends.point rfl c rfl),
          if_neg (by simp [hends.mark rfl c rfl])]
    | @some mark sign digits hmark hsign hdigits =>
      -- With an exponent alone, the significand is shifted.
      refine ⟨(shift significand dropped (decide (sign = ['-'])) (natOfDigits digits)).map
        fun x => .float ⟨negative, x⟩, fun rest hfends hends => ?_⟩
      rw [List.nil_append, List.cons_append, List.append_assoc, numberBehind,
        if_neg (hfends.point rfl mark rfl), if_pos hmark,
        exponentFrom_append hsign hdigits hends.digit, map_map, map_map]
      rfl

/-- Where reading on behind the whole part succeeds, the fraction and the exponent are there and end
where reading does. -/
theorem ends_of_numberBehind {negative : Bool} {significand : Nat} {dropped : Int} {n : Number}
    (hdigit : startsWithDigit text = false)
    (h : numberBehind negative significand dropped text = .ok (n, rest)) :
    ∃ fraction exponent, text = fraction ++ (exponent ++ rest) ∧
      FractionEnds fraction (exponent ++ rest) ∧ ExponentEnds exponent rest := by
  unfold numberBehind at h
  split at h
  · -- The text ends behind the whole part.
    obtain ⟨_, -, heq⟩ := map_eq_ok.mp h
    obtain ⟨-, rfl⟩ := Prod.mk.inj heq
    exact ⟨[], [], rfl, .nil, .nil⟩
  next c more =>
  split at h
  · -- A point: the digits behind it are the fraction, and the exponent follows.
    next hpoint =>
    subst hpoint
    obtain ⟨htext, hdigits, hafter⟩ := spanDigits_eq_iff.mp (rfl : spanDigits more = _)
    dsimp only at h
    split at h
    · exact absurd h (by simp)
    next hempty =>
    obtain ⟨⟨x, after⟩, hx, heq⟩ := map_eq_ok.mp h
    obtain ⟨-, rfl⟩ := Prod.mk.inj heq
    obtain ⟨exponent, hexponent, hends⟩ := exponentEnds_of_floatFrom hafter hx
    rw [hexponent] at htext hafter
    refine ⟨'.' :: (spanDigits more).1, exponent, congrArg _ htext,
      ⟨.some ⟨?_, hdigits⟩, hafter, ?_⟩, hends⟩
    · exact fun hnil => hempty (by rw [hnil]; rfl)
    · exact fun hnil => absurd hnil (by simp)
  next hpoint =>
  split at h
  · -- An exponent without a fraction.
    next hmark =>
    obtain ⟨⟨x, after⟩, hx, heq⟩ := map_eq_ok.mp h
    obtain ⟨-, rfl⟩ := Prod.mk.inj heq
    obtain ⟨exponent, htext, hends⟩ := exponentEnds_of_exponentFrom hmark hx
    rw [htext] at hdigit
    refine ⟨[], exponent, htext, ⟨.none, hdigit, fun _ c' hc => ?_⟩, hends⟩
    rw [← htext] at hc
    exact Option.some.inj hc ▸ hpoint
  · -- Something else ends the number.
    next hmark =>
    obtain ⟨_, -, heq⟩ := map_eq_ok.mp h
    obtain ⟨-, rfl⟩ := Prod.mk.inj heq
    exact ⟨[], [], rfl, .of_not_point hdigit hpoint, .of_not_mark hdigit hmark⟩

/-- The whole part of a number is accumulated, and what is behind it is read on its own. -/
theorem numberFrom_append {whole : List Char} (hwhole : IsWhole whole)
    (hrest : startsWithDigit rest = false) (negative : Bool) : numberFrom negative (whole ++ rest)
      = numberBehind negative (accumulate 0 whole).1 (whole.length - (accumulate 0 whole).2) rest := by
  unfold numberFrom
  rw [isEmpty_append hwhole.1, startsWithDigit_append hwhole.1, spanDigits_append hwhole.1 hrest]
  dsimp only
  rw [hwhole.zero]
  rfl

/-- What a number is depends on its literal alone. -/
theorem Literal.exists_number {used : List Char} (h : Literal used rest) (negative : Bool) :
    ∃ n : Except JsonError Number, numberFrom negative used = n.map (·, []) ∧
      numberFrom negative (used ++ rest) = n.map (·, rest) := by
  obtain ⟨whole, fraction, exponent, rfl, hwhole, hfraction, hexponent⟩ := h
  have hfraction' := delimited_nil.fractionEnds hfraction.form hexponent.form
  have hexponent' := delimited_nil.exponentEnds hexponent.form
  obtain ⟨n, hn⟩ := numberBehind_append hfraction.form hexponent.form negative (accumulate 0 whole).1
    (whole.length - (accumulate 0 whole).2)
  refine ⟨n, ?_, ?_⟩
  · have hnil := hn [] hfraction' hexponent'
    have hempty := hfraction'.startsWithDigit_append
    rw [List.append_nil] at hnil hempty
    rw [numberFrom_append hwhole hempty, hnil]
  · rw [List.append_assoc, List.append_assoc,
      numberFrom_append hwhole hfraction.startsWithDigit_append, hn rest hfraction hexponent]

/-- A number that is asked for ends where its literal does, and is what the literal is on its own. -/
theorem numberFrom_eq_ok_iff_alone {negative : Bool} {n : Number} : numberFrom negative text = .ok (n, rest) ↔
    ∃ used, text = used ++ rest ∧ Literal used rest ∧ numberFrom negative used = .ok (n, []) := by
  constructor
  · intro h
    obtain ⟨used, rfl, hliteral⟩ : ∃ used, text = used ++ rest ∧ Literal used rest := by
      have h' := h
      unfold numberFrom at h'
      split at h'
      · exact absurd h' (by simp)
      split at h'
      · exact absurd h' (by simp)
      next hstart =>
      rw [Bool.not_eq_true, Bool.not_eq_false'] at hstart
      obtain ⟨whole, after, rfl, hdigits, hafter⟩ := exists_digits hstart
      rw [spanDigits_append hdigits hafter] at h'
      dsimp only at h'
      split at h'
      · exact absurd h' (by simp)
      next hzero =>
      obtain ⟨fraction, exponent, rfl, hfraction, hexponent⟩ := ends_of_numberBehind hafter h'
      exact ⟨whole ++ (fraction ++ exponent), by simp, whole, fraction, exponent, rfl,
        isWhole_of_digits hdigits hzero, hfraction, hexponent⟩
    -- The literal comes to the same on its own, with nothing behind it.
    obtain ⟨result, halone, hbefore⟩ := hliteral.exists_number negative
    obtain ⟨n', rfl, heq⟩ := map_eq_ok.mp (hbefore.symm.trans h)
    obtain ⟨rfl, -⟩ := Prod.mk.inj heq
    exact ⟨used, rfl, hliteral, halone⟩
  · rintro ⟨used, rfl, hliteral, hn⟩
    obtain ⟨result, halone, hbefore⟩ := hliteral.exists_number negative
    obtain ⟨n', rfl, heq⟩ := map_eq_ok.mp (halone.symm.trans hn)
    obtain ⟨rfl, -⟩ := Prod.mk.inj heq
    exact hbefore

end QueryModule.Json
