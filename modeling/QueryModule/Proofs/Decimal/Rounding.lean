import Mathlib.Algebra.Order.Field.Power
import Mathlib.Data.Nat.Log
import Mathlib.Tactic.FieldSimp
import Mathlib.Tactic.Linarith
import Mathlib.Tactic.Positivity
import Mathlib.Tactic.Ring
import QueryModule.Decimal.Binary64

/-!
# Rounding to the binary format

Every finite value `s · 2 ^ e` stands for an interval of numbers, which `RoundsTo` spells out. The
exact arithmetic of `ofRatio` gives the value back for each fraction in it. Two cases need care: where
the significand is full, the interval is narrower on its lower side, and a fraction just below a power
of two is rounded up to it on the finer grid, from which `normalize` carries it over.

> `ofRatio_eq_finite`: a fraction in the interval of a value is rounded to this value.
>
> `canonical_of_ofRatio`: what a fraction is rounded to is a value of the format.
-/

namespace QueryModule.Decimal.Magnitude

/-- The significands and exponents that values of the format have: a significand of fewer than 53 bits
only goes with the least exponent. -/
structure Canonical (s : Nat) (e : Int) : Prop where
  lt : s < 2 ^ 53
  least : minExponent ≤ e
  greatest : e ≤ maxExponent
  full : 2 ^ 52 ≤ s ∨ e = minExponent

/-- How far the interval of a value reaches down, in units of its last bit. -/
def roomBelow (s : Nat) (e : Int) : ℚ := if s = 2 ^ 52 ∧ minExponent < e then 1 / 4 else 1 / 2

/-- The number is in the interval of `s · 2 ^ e`, the ends of which belong to it where `s` is even. -/
structure RoundsTo (x : ℚ) (s : Nat) (e : Int) : Prop where
  lower : (s - roomBelow s e) * 2 ^ e ≤ x
  upper : x ≤ (s + 1 / 2) * 2 ^ e
  odd : s % 2 = 1 → (s - roomBelow s e) * 2 ^ e < x ∧ x < (s + 1 / 2) * 2 ^ e

variable {n d s : Nat} {e E : Int}

theorem canonical_zero : Canonical 0 minExponent := ⟨by norm_num, le_rfl, by decide, .inr rfl⟩

/-- There is room below every value. -/
theorem roomBelow_pos (s : Nat) (e : Int) : 0 < roomBelow s e := by
  unfold roomBelow
  split <;> norm_num

/-- But the room is at most half a unit, as it is above. -/
theorem roomBelow_le (s : Nat) (e : Int) : roomBelow s e ≤ 1 / 2 := by
  unfold roomBelow
  split <;> norm_num

theorem two_zpow_pos (e : Int) : (0 : ℚ) < 2 ^ e := zpow_pos (by norm_num) e

theorem two_zpow_succ (e : Int) : (2 : ℚ) ^ (e + 1) = 2 * 2 ^ e := by
  rw [zpow_add_one₀ (by norm_num), mul_comm]

theorem two_zpow_le {e f : Int} (h : e ≤ f) : (2 : ℚ) ^ e ≤ 2 ^ f :=
  zpow_le_zpow_right₀ (by norm_num) h

/-! ## Quotients -/

/-- A quotient is rounded to the nearest integer, and from the middle between two to the even one. -/
theorem roundQuotient_cases (n d : Nat) :
    (2 * (n % d) < d ∧ roundQuotient n d = n / d) ∨
      (d < 2 * (n % d) ∧ roundQuotient n d = n / d + 1) ∨
      (2 * (n % d) = d ∧ roundQuotient n d = n / d + n / d % 2) := by
  show (_ ∧ (if 2 * (n % d) < d then n / d else if 2 * (n % d) > d then _ else _) = _) ∨
    (_ ∧ (if 2 * (n % d) < d then n / d else if 2 * (n % d) > d then _ else _) = _) ∨
    _ ∧ (if 2 * (n % d) < d then n / d else if 2 * (n % d) > d then _ else _) = _
  rcases Nat.lt_trichotomy (2 * (n % d)) d with h | h | h
  · exact .inl ⟨h, if_pos h⟩
  · exact .inr (.inr ⟨h, by rw [if_neg (by omega), if_neg (by omega)]⟩)
  · exact .inr (.inl ⟨h, by rw [if_neg (by omega), if_pos h]⟩)

/-- An integer that is within a half of a quotient is one of its two neighbours. -/
theorem eq_div_or_eq_succ_div {r : Nat} (hd : 0 < d) (hlower : 2 * (r * d) ≤ 2 * n + d)
    (hupper : 2 * n ≤ 2 * (r * d) + d) : r = n / d ∨ r = n / d + 1 := by
  have hn : n = n / d * d + n % d := (Nat.div_add_mod' n d).symm
  have hmod : n % d < d := Nat.mod_lt n hd
  generalize n / d = q at hn ⊢
  by_contra hne
  rcases Nat.lt_or_ge r q with hlt | hge
  · have := Nat.mul_le_mul_right d (Nat.succ_le_of_lt hlt)
    rw [Nat.succ_mul] at this
    omega
  · have hge : q + 2 ≤ r := by omega
    have := Nat.mul_le_mul_right d hge
    rw [Nat.add_mul] at this
    omega

/-- A quotient is rounded to an integer that is within a half of it, and to an odd one only if it is
nearer than that. -/
theorem roundQuotient_eq_of_le {r : Nat} (hd : 0 < d) (hlower : 2 * (r * d) ≤ 2 * n + d)
    (hupper : 2 * n ≤ 2 * (r * d) + d)
    (hodd : r % 2 = 1 → 2 * (r * d) < 2 * n + d ∧ 2 * n < 2 * (r * d) + d) : roundQuotient n d = r := by
  have hn : n = n / d * d + n % d := (Nat.div_add_mod' n d).symm
  have hmod : n % d < d := Nat.mod_lt n hd
  have hcases := roundQuotient_cases n d
  have hr := eq_div_or_eq_succ_div hd hlower hupper
  generalize n / d = q at hn hcases hr
  generalize n % d = m at hn hmod hcases
  have heven : 2 * m = d → r % 2 = 0 := by
    intro hm
    by_contra h
    have := hodd (by omega)
    rcases hr with rfl | rfl
    · omega
    · rw [Nat.add_mul] at this
      omega
  rcases hr with rfl | rfl
  · omega
  · rw [Nat.add_mul] at hlower
    omega

/-- The same with bounds on the quotient itself. -/
theorem roundQuotient_eq {r : Nat} (hd : 0 < d) (hlower : (r : ℚ) - 1 / 2 ≤ n / d)
    (hupper : (n : ℚ) / d ≤ r + 1 / 2)
    (hodd : r % 2 = 1 → (r : ℚ) - 1 / 2 < n / d ∧ (n : ℚ) / d < r + 1 / 2) :
    roundQuotient n d = r := by
  have hd' : (0 : ℚ) < d := by exact_mod_cast hd
  rw [le_div_iff₀ hd'] at hlower
  rw [div_le_iff₀ hd'] at hupper
  rw [lt_div_iff₀ hd', div_lt_iff₀ hd'] at hodd
  refine roundQuotient_eq_of_le hd ?_ ?_ fun h => ?_
  · have : 2 * ((r : ℚ) * d) ≤ 2 * n + d := by linarith
    exact_mod_cast this
  · have : 2 * (n : ℚ) ≤ 2 * (r * d) + d := by linarith
    exact_mod_cast this
  · obtain ⟨hl, hu⟩ := hodd h
    have hl : 2 * ((r : ℚ) * d) < 2 * n + d := by linarith
    have hu : 2 * (n : ℚ) < 2 * (r * d) + d := by linarith
    exact ⟨by exact_mod_cast hl, by exact_mod_cast hu⟩

/-- Rounding does not get over an integer bound. -/
theorem roundQuotient_le {b : Nat} (hd : 0 < d) (h : n ≤ b * d) : roundQuotient n d ≤ b := by
  have hn : n = n / d * d + n % d := (Nat.div_add_mod' n d).symm
  have hquotient : n / d ≤ b := Nat.div_le_of_le_mul (by rwa [Nat.mul_comm])
  have hcases := roundQuotient_cases n d
  rcases Nat.lt_or_ge (n / d) b with hlt | hge
  · omega
  · -- Nothing is left over.
    have heq : n / d = b := by omega
    rw [heq] at hn hcases
    omega

/-- Nor does it get below one. -/
theorem le_roundQuotient {b : Nat} (hd : 0 < d) (h : b * d ≤ n) : b ≤ roundQuotient n d := by
  have hquotient : b ≤ n / d := (Nat.le_div_iff_mul_le hd).mpr h
  have hcases := roundQuotient_cases n d
  omega

/-! ## The grid of a value -/

/-- The denominator stays positive on every grid. -/
theorem scaled_pos (n : Nat) (hd : 0 < d) (E : Int) : 0 < (scaled n d E).2 := by
  unfold scaled
  split
  · exact Nat.mul_pos hd (Nat.pow_pos (by norm_num))
  · exact hd

/-- A fraction in units of `2 ^ E`. -/
theorem scaled_ratio (n : Nat) (hd : 0 < d) (E : Int) :
    ((scaled n d E).1 : ℚ) / (scaled n d E).2 = n / d / 2 ^ E := by
  have hd' : (d : ℚ) ≠ 0 := by positivity
  cases E with
  | ofNat k =>
    show (n : ℚ) / ((d * 2 ^ k : Nat) : ℚ) = n / d / 2 ^ (k : Int)
    push_cast
    rw [zpow_natCast]
    field_simp
  | negSucc k =>
    show ((n * 2 ^ (k + 1) : Nat) : ℚ) / d = n / d / 2 ^ (Int.negSucc k)
    push_cast
    rw [zpow_negSucc]
    field_simp

/-- The magnitude of a positive number by its binary logarithm. -/
theorem log2_bounds (hn : n ≠ 0) : (2 : ℚ) ^ (n.log2 : Int) ≤ n ∧ (n : ℚ) < 2 ^ (n.log2 + 1 : Int) := by
  constructor
  · rw [zpow_natCast]
    exact_mod_cast Nat.log2_self_le hn
  · have h : n < 2 ^ (n.log2 + 1) := Nat.lt_log2_self
    rw [show (n.log2 + 1 : Int) = ((n.log2 + 1 : Nat) : Int) by push_cast; rfl, zpow_natCast]
    exact_mod_cast h

/-- A bound on the fraction, on its grid. -/
theorem scaled_lt_iff (n : Nat) (hd : 0 < d) (E : Int) (b : Nat) :
    (scaled n d E).1 < (scaled n d E).2 * b ↔ (n : ℚ) / d < b * 2 ^ E := by
  have hpos : (0 : ℚ) < (scaled n d E).2 := by exact_mod_cast scaled_pos n hd E
  rw [← div_lt_iff₀ (two_zpow_pos E), ← scaled_ratio n hd, div_lt_iff₀ hpos, mul_comm (b : ℚ),
    ← Nat.cast_mul, Nat.cast_lt]

/-- The exponent that `ofRatio` starts from, which may be one too high. -/
def guess (n d : Nat) : Int := (n.log2 : Int) - d.log2 - 52

/-- With the exponent that is guessed, the fraction has 52 or 53 bits. -/
theorem guess_bounds (hn : n ≠ 0) (hd : 0 < d) :
    (2 : ℚ) ^ 51 * 2 ^ guess n d < n / d ∧ (n : ℚ) / d < 2 ^ 53 * 2 ^ guess n d := by
  obtain ⟨hnlow, hnup⟩ := log2_bounds hn
  obtain ⟨hdlow, hdup⟩ := log2_bounds (Nat.pos_iff_ne_zero.mp hd)
  have hd' : (0 : ℚ) < d := by exact_mod_cast hd
  have hpos := two_zpow_pos (guess n d)
  constructor
  · rw [lt_div_iff₀ hd']
    calc (2 : ℚ) ^ 51 * 2 ^ guess n d * d < 2 ^ 51 * 2 ^ guess n d * 2 ^ (d.log2 + 1 : Int) := by
          gcongr
      _ = 2 ^ (n.log2 : Int) := by
          rw [← zpow_natCast, ← zpow_add₀ (by norm_num), ← zpow_add₀ (by norm_num)]
          congr 1
          unfold guess
          omega
      _ ≤ n := hnlow
  · rw [div_lt_iff₀ hd']
    calc (n : ℚ) < 2 ^ (n.log2 + 1 : Int) := hnup
      _ = 2 ^ 53 * 2 ^ guess n d * 2 ^ (d.log2 : Int) := by
          rw [← zpow_natCast, ← zpow_add₀ (by norm_num), ← zpow_add₀ (by norm_num)]
          congr 1
          unfold guess
          omega
      _ ≤ 2 ^ 53 * 2 ^ guess n d * d := by gcongr

theorem gridExponent_eq (n d : Nat) :
    gridExponent n d = max minExponent
      (if (scaled n d (guess n d)).1 < (scaled n d (guess n d)).2 * Nat.pow 2 52 then guess n d - 1
      else guess n d) := rfl

/-- A fraction is rounded on its grid, and then brought into the form of the format. -/
theorem ofRatio_eq (hn : n ≠ 0) (d : Nat) :
    ofRatio n d = normalize (roundQuotient (scaled n d (gridExponent n d)).1
      (scaled n d (gridExponent n d)).2) (gridExponent n d) := by
  unfold ofRatio
  rw [if_neg hn]

/-- No grid is finer than the finest of the format. -/
theorem minExponent_le_gridExponent (n d : Nat) : minExponent ≤ gridExponent n d := by
  rw [gridExponent_eq]
  exact le_max_left _ _

/-- On its grid a fraction has at most 53 bits. -/
theorem lt_gridExponent (hn : n ≠ 0) (hd : 0 < d) :
    (n : ℚ) / d < 2 ^ 53 * 2 ^ gridExponent n d := by
  have hiff := scaled_lt_iff n hd (guess n d) (Nat.pow 2 52)
  by_cases h : (scaled n d (guess n d)).1 < (scaled n d (guess n d)).2 * Nat.pow 2 52
  · have hE : guess n d ≤ gridExponent n d + 1 := by
      rw [gridExponent_eq, if_pos h]
      omega
    calc (n : ℚ) / d < (Nat.pow 2 52 : Nat) * 2 ^ guess n d := hiff.mp h
      _ ≤ (Nat.pow 2 52 : Nat) * 2 ^ (gridExponent n d + 1) := by
          have := two_zpow_le hE
          gcongr
      _ = 2 ^ 53 * 2 ^ gridExponent n d := by
          rw [two_zpow_succ, Nat.pow_eq]
          push_cast
          ring
  · have hE : guess n d ≤ gridExponent n d := by
      rw [gridExponent_eq, if_neg h]
      omega
    have := two_zpow_le hE
    linarith [(guess_bounds hn hd).2]

/-- On its grid a fraction has 53 bits, unless the grid is the finest one. -/
theorem gridExponent_le (hn : n ≠ 0) (hd : 0 < d) :
    gridExponent n d = minExponent ∨ (2 : ℚ) ^ 52 * 2 ^ gridExponent n d ≤ n / d := by
  have hiff := scaled_lt_iff n hd (guess n d) (Nat.pow 2 52)
  rw [gridExponent_eq]
  rcases max_choice minExponent (if (scaled n d (guess n d)).1
      < (scaled n d (guess n d)).2 * Nat.pow 2 52 then guess n d - 1 else guess n d) with hE | hE
  · exact .inl hE
  · refine .inr ?_
    rw [hE]
    split
    · have hhalf : (2 : ℚ) ^ guess n d = 2 * 2 ^ (guess n d - 1) := by
        rw [← two_zpow_succ, sub_add_cancel]
      linarith [(guess_bounds hn hd).1]
    next h =>
      have hle := not_lt.mp fun hlt => h (hiff.mpr hlt)
      rw [Nat.pow_eq] at hle
      push_cast at hle
      exact hle

/-! ## Values of the format -/

/-- A significand of at most 53 bits is taken as it is. -/
theorem normalize_eq_finite (hs : s ≠ 2 ^ 53) (he : e ≤ maxExponent) : normalize s e = .finite s e := by
  unfold normalize
  rw [if_neg (show ¬ s = Nat.pow 2 53 from hs)]
  exact if_neg (not_lt.mpr he)

/-- A significand of 54 bits is carried over to the next exponent. -/
theorem normalize_carry (he : e + 1 ≤ maxExponent) :
    normalize (2 ^ 53) e = .finite (2 ^ 52) (e + 1) := by
  unfold normalize
  rw [if_pos (show 2 ^ 53 = Nat.pow 2 53 from rfl)]
  exact if_neg (not_lt.mpr he)

/-- What is made of a rounded fraction is of the format. -/
theorem canonical_of_normalize {m : Nat} (hm : m ≤ 2 ^ 53) (hE : minExponent ≤ E)
    (hfull : E = minExponent ∨ 2 ^ 52 ≤ m) (h : normalize m E = .finite s e) : Canonical s e := by
  by_cases hcarry : m = 2 ^ 53
  · by_cases hmax : E + 1 ≤ maxExponent
    · rw [hcarry, normalize_carry hmax] at h
      obtain ⟨rfl, rfl⟩ := Magnitude.finite.inj h
      exact ⟨by norm_num, by omega, hmax, .inl le_rfl⟩
    · rw [hcarry] at h
      unfold normalize at h
      rw [if_pos (show 2 ^ 53 = Nat.pow 2 53 from rfl)] at h
      exact absurd h (by simp [not_le.mp hmax])
  · by_cases hmax : E ≤ maxExponent
    · rw [normalize_eq_finite hcarry hmax] at h
      obtain ⟨rfl, rfl⟩ := Magnitude.finite.inj h
      exact ⟨by omega, hE, hmax, hfull.symm⟩
    · unfold normalize at h
      rw [if_neg (show ¬ m = Nat.pow 2 53 from hcarry)] at h
      exact absurd h (by simp [not_le.mp hmax])

/-- What a fraction is rounded to has a significand and an exponent of the format. -/
theorem canonical_of_ofRatio (hd : 0 < d) (h : ofRatio n d = .finite s e) : Canonical s e := by
  by_cases hn : n = 0
  · rw [hn] at h
    obtain ⟨rfl, rfl⟩ := Magnitude.finite.inj h
    exact canonical_zero
  · rw [ofRatio_eq hn] at h
    have hpos := scaled_pos n hd (gridExponent n d)
    have hratio := scaled_ratio n hd (gridExponent n d)
    have hpos' : (0 : ℚ) < (scaled n d (gridExponent n d)).2 := by exact_mod_cast hpos
    have htwo := two_zpow_pos (gridExponent n d)
    refine canonical_of_normalize (roundQuotient_le hpos ?_) (minExponent_le_gridExponent n d) ?_ h
    · have hlt := lt_gridExponent hn hd
      rw [← div_lt_iff₀ htwo, ← hratio, div_lt_iff₀ hpos'] at hlt
      exact_mod_cast hlt.le
    · refine (gridExponent_le hn hd).imp_right fun hle => le_roundQuotient hpos ?_
      rw [← le_div_iff₀ htwo, ← hratio, le_div_iff₀ hpos'] at hle
      exact_mod_cast hle

/-- The interval of a value does not reach up to where the grid is coarser. -/
theorem RoundsTo.not_coarser {x : ℚ} (hc : Canonical s e) (h : RoundsTo x s e)
    (hE : E = minExponent ∨ 2 ^ 52 * 2 ^ E ≤ x) : E ≤ e := by
  by_contra hlt
  have hlt := not_le.mp hlt
  have hbig := hE.resolve_left (by have := hc.least; omega)
  have hle : (2 : ℚ) ^ (e + 1) ≤ 2 ^ E := two_zpow_le hlt
  have hs : (s : ℚ) + 1 ≤ 2 ^ 53 := by exact_mod_cast hc.lt
  have htwo := two_zpow_pos e
  rw [two_zpow_succ] at hle
  nlinarith [h.upper]

/-- The interval of a value reaches down to a finer grid only at a power of two, and only to the next
one. -/
theorem RoundsTo.eq_of_finer {x : ℚ} (hc : Canonical s e) (h : RoundsTo x s e) (hmin : minExponent ≤ E)
    (hlt : x < 2 ^ 53 * 2 ^ E) (hE : E < e) : s = 2 ^ 52 ∧ e = E + 1 := by
  have hle : (2 : ℚ) ^ (E + 1) ≤ 2 ^ e := two_zpow_le hE
  have htwo := two_zpow_pos e
  have hlower := h.lower
  have hs : s = 2 ^ 52 := by
    by_contra hne
    have hslow : 2 ^ 52 ≤ s := hc.full.resolve_right (by omega)
    have hslow : 2 ^ 52 + 1 ≤ s := by omega
    have hslow : (2 : ℚ) ^ 52 + 1 ≤ s := by exact_mod_cast hslow
    rw [two_zpow_succ] at hle
    nlinarith [roomBelow_le s e]
  refine ⟨hs, ?_⟩
  by_contra hne
  have hle : (2 : ℚ) ^ (E + 1 + 1) ≤ 2 ^ e := two_zpow_le (by omega)
  rw [two_zpow_succ, two_zpow_succ] at hle
  rw [hs, show roomBelow (2 ^ 52) e = 1 / 4 from if_pos ⟨rfl, by omega⟩] at hlower
  push_cast at hlower
  nlinarith

/-- On its own grid, a fraction in the interval of a value has the significand of this value. -/
theorem RoundsTo.roundQuotient_eq (hd : 0 < d) (h : RoundsTo ((n : ℚ) / d) s e) :
    roundQuotient (scaled n d e).1 (scaled n d e).2 = s := by
  have htwo := two_zpow_pos e
  have hroom := roomBelow_le s e
  have hratio := scaled_ratio n hd e
  refine Magnitude.roundQuotient_eq (scaled_pos n hd e) ?_ ?_ fun hodd => ?_
  · rw [hratio, le_div_iff₀ htwo]
    nlinarith [h.lower]
  · rw [hratio, div_le_iff₀ htwo]
    exact h.upper
  · obtain ⟨hl, hu⟩ := h.odd hodd
    rw [hratio, lt_div_iff₀ htwo, div_lt_iff₀ htwo]
    exact ⟨by nlinarith, hu⟩

/-- On the next finer grid, a fraction in the interval of a power of two is rounded up to it. -/
theorem RoundsTo.roundQuotient_finer (hd : 0 < d) (hmin : minExponent ≤ E)
    (h : RoundsTo ((n : ℚ) / d) (2 ^ 52) (E + 1)) (hlt : (n : ℚ) / d < 2 ^ 53 * 2 ^ E) :
    roundQuotient (scaled n d E).1 (scaled n d E).2 = 2 ^ 53 := by
  have htwo := two_zpow_pos E
  have hratio := scaled_ratio n hd E
  have hlower := h.lower
  rw [show roomBelow (2 ^ 52) (E + 1) = 1 / 4 from if_pos ⟨rfl, by omega⟩, two_zpow_succ] at hlower
  push_cast at hlower
  refine Magnitude.roundQuotient_eq (scaled_pos n hd E) ?_ ?_ fun hodd => absurd hodd (by norm_num)
  · rw [hratio, le_div_iff₀ htwo]
    push_cast
    linarith
  · rw [hratio, div_le_iff₀ htwo]
    push_cast
    linarith

/-- A fraction in the interval of a value is rounded to this value. -/
theorem ofRatio_eq_finite (hn : n ≠ 0) (hd : 0 < d) (hc : Canonical s e)
    (h : RoundsTo ((n : ℚ) / d) s e) : ofRatio n d = .finite s e := by
  have hmin := minExponent_le_gridExponent n d
  have hlt := lt_gridExponent hn hd
  have hle := h.not_coarser hc (gridExponent_le hn hd)
  rw [ofRatio_eq hn]
  generalize gridExponent n d = E at hmin hlt hle ⊢
  rcases hle.lt_or_eq with hfiner | rfl
  · obtain ⟨rfl, rfl⟩ := h.eq_of_finer hc hmin hlt hfiner
    rw [h.roundQuotient_finer hd hmin hlt, normalize_carry hc.greatest]
  · rw [h.roundQuotient_eq hd, normalize_eq_finite (Nat.ne_of_lt hc.lt) hc.greatest]

end QueryModule.Decimal.Magnitude
