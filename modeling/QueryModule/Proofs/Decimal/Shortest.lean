import QueryModule.Decimal.Shortest
import QueryModule.Proofs.Decimal.Rounding

/-!
# Shortest decimals read back

The search for the shortest decimal ends on a grid `10 ^ k` that is finer than the interval of the value
(`fine_lastGrid`). There a neighbour of the value is in the interval, and every neighbour that the search
accepts is (`roundsTo_of_onGrid?`). Reading the decimal rounds it, and so gives the value back.

> `ofDecimal_shortest`: the shortest decimal of a value is read as this value.
-/

namespace QueryModule.Decimal

open Magnitude

/-- The number that a decimal stands for. -/
def Numeral.value (d : Numeral) : ℚ := d.digits * 10 ^ d.exponent

variable {s ten two d : Nat} {e k : Int}

theorem ten_zpow_pos (k : Int) : (0 : ℚ) < 10 ^ k := zpow_pos (by norm_num) k

/-! ## The two neighbours on a grid -/

/-- The numbers of common units that the steps of a decimal grid and the quarters of the last bit of a
value consist of. -/
structure CommonUnit (k e : Int) (ten two : Nat) : Prop where
  ten_pos : 0 < ten
  two_pos : 0 < two
  ratio : (ten : ℚ) * 2 ^ (e - 2) = two * 10 ^ k

/-- A power with its negative exponent taken off is one with a natural exponent. -/
theorem pow_toNat {b : ℚ} (hb : b ≠ 0) (k : Int) : b ^ k.toNat = b ^ k * b ^ (-k).toNat := by
  rcases le_total 0 k with h | h
  · obtain ⟨n, rfl⟩ := Int.eq_ofNat_of_zero_le h
    simp
  · obtain ⟨n, hn⟩ := Int.eq_ofNat_of_zero_le (neg_nonneg.mpr h)
    obtain rfl : k = -(n : Int) := by omega
    simp [hb]

/-- The two numbers that are computed are those of common units. -/
theorem commonUnit_spec (k e : Int) :
    CommonUnit k e (commonUnit k (e - 2)).1 (commonUnit k (e - 2)).2 := by
  refine ⟨?_, ?_, ?_⟩
  · exact Nat.mul_pos (Nat.pow_pos (by norm_num)) (Nat.pow_pos (by norm_num))
  · exact Nat.mul_pos (Nat.pow_pos (by norm_num)) (Nat.pow_pos (by norm_num))
  · show ((10 ^ k.toNat * 2 ^ (-(e - 2)).toNat : Nat) : ℚ) * 2 ^ (e - 2)
      = ((2 ^ (e - 2).toNat * 10 ^ (-k).toNat : Nat) : ℚ) * 10 ^ k
    push_cast
    rw [pow_toNat (by norm_num) k, pow_toNat (by norm_num) (e - 2)]
    ring

/-- In terms of a common unit, a step of the grid and four quarters of the last bit are whole. -/
theorem CommonUnit.exists_unit (h : CommonUnit k e ten two) :
    ∃ u : ℚ, 0 < u ∧ (10 : ℚ) ^ k = ten * u ∧ (2 : ℚ) ^ e = 4 * two * u := by
  have htwo : (0 : ℚ) < two := by exact_mod_cast h.two_pos
  refine ⟨2 ^ (e - 2) / two, div_pos (two_zpow_pos _) htwo, ?_, ?_⟩
  · rw [← mul_div_assoc, h.ratio, mul_div_cancel_left₀ _ htwo.ne']
  · have he : (2 : ℚ) ^ e = 2 * (2 * 2 ^ (e - 2)) := by
      rw [← two_zpow_succ, ← two_zpow_succ]
      congr 1
      omega
    rw [he]
    field_simp
    norm_num

/-- A multiple of the grid at most so many quarters of the last bit below the value. -/
theorem roundsTo_below {c : Nat} (hu : CommonUnit k e ten two) (hc : (c : ℚ) / 4 = roomBelow s e)
    (hd : d * ten ≤ 4 * s * two) (hgap : 4 * s * two - d * ten ≤ c * two)
    (hodd : s % 2 = 1 → 4 * s * two - d * ten < c * two) : RoundsTo (d * 10 ^ k) s e := by
  have htwo : (0 : ℚ) < two := by exact_mod_cast hu.two_pos
  obtain ⟨u, hpos, hten, he⟩ := hu.exists_unit
  have hd : (d : ℚ) * ten ≤ 4 * s * two := by exact_mod_cast hd
  have hupper : (d : ℚ) * (ten * u) < (s + 1 / 2) * (4 * two * u) := by
    nlinarith [mul_pos hpos htwo]
  rw [hten]
  refine ⟨?_, by rw [he]; exact hupper.le, fun h => ⟨?_, by rw [he]; exact hupper⟩⟩
  · have hgap : 4 * s * two ≤ c * two + d * ten := by omega
    have hgap : 4 * (s : ℚ) * two ≤ c * two + d * ten := by exact_mod_cast hgap
    rw [he, ← hc]
    nlinarith
  · have hgap : 4 * s * two < c * two + d * ten := by
      have := hodd h
      omega
    have hgap : 4 * (s : ℚ) * two < c * two + d * ten := by exact_mod_cast hgap
    rw [he, ← hc]
    nlinarith

/-- A multiple of the grid at most half of the last bit above the value. -/
theorem roundsTo_above (hu : CommonUnit k e ten two) (hd : 4 * s * two ≤ d * ten)
    (hgap : d * ten - 4 * s * two ≤ 2 * two)
    (hodd : s % 2 = 1 → d * ten - 4 * s * two < 2 * two) : RoundsTo (d * 10 ^ k) s e := by
  have htwo : (0 : ℚ) < two := by exact_mod_cast hu.two_pos
  obtain ⟨u, hpos, hten, he⟩ := hu.exists_unit
  have hd : 4 * (s : ℚ) * two ≤ d * ten := by exact_mod_cast hd
  have hlower : (s - roomBelow s e) * (4 * two * u) < (d : ℚ) * (ten * u) := by
    have hroom := roomBelow_pos s e
    nlinarith [mul_pos hroom (mul_pos hpos htwo)]
  rw [hten]
  refine ⟨by rw [he]; exact hlower.le, ?_, fun h => ⟨by rw [he]; exact hlower, ?_⟩⟩
  · have hgap : d * ten ≤ 2 * two + 4 * s * two := by omega
    have hgap : (d : ℚ) * ten ≤ 2 * two + 4 * s * two := by exact_mod_cast hgap
    rw [he]
    nlinarith
  · have hgap : d * ten < 2 * two + 4 * s * two := by
      have := hodd h
      omega
    have hgap : (d : ℚ) * ten < 2 * two + 4 * s * two := by exact_mod_cast hgap
    rw [he]
    nlinarith

/-- The distance of a neighbour is within the room, the end of which only counts for even
significands. -/
def Fits (s gap room : Nat) : Prop := gap ≤ room ∧ (s % 2 = 1 → gap < room)

/-- The comparison that the search makes is the one of the neighbour's distance with its room. -/
theorem fits_iff (s gap room : Nat) :
    (if s % 2 = 0 then decide (gap ≤ room) else decide (gap < room)) = true ↔ Fits s gap room := by
  unfold Fits
  split
  · rw [decide_eq_true_eq]
    omega
  · rw [decide_eq_true_eq]
    omega

/-- The room below a value in quarters of its last bit. -/
def quartersBelow (s : Nat) (e : Int) : Nat := if s = 2 ^ 52 ∧ minExponent < e then 1 else 2

/-- The room below a value is counted in quarters of its last bit. -/
theorem quartersBelow_eq (s : Nat) (e : Int) : (quartersBelow s e : ℚ) / 4 = roomBelow s e := by
  unfold quartersBelow roomBelow
  split <;> norm_num

/-- The lower neighbour of the value on a grid. -/
def lowerNeighbour (s : Nat) (e k : Int) : Nat :=
  4 * s * (commonUnit k (e - 2)).2 / (commonUnit k (e - 2)).1

/-- The distance of the lower neighbour is within the room below the value. -/
def FitsBelow (s : Nat) (e k : Int) : Prop :=
  Fits s (4 * s * (commonUnit k (e - 2)).2 - lowerNeighbour s e k * (commonUnit k (e - 2)).1)
    (quartersBelow s e * (commonUnit k (e - 2)).2)

/-- The distance of the upper neighbour is within the room above the value. -/
def FitsAbove (s : Nat) (e k : Int) : Prop :=
  Fits s ((lowerNeighbour s e k + 1) * (commonUnit k (e - 2)).1 - 4 * s * (commonUnit k (e - 2)).2)
    (2 * (commonUnit k (e - 2)).2)

/-- What is found on a grid is a neighbour of the value that fits. -/
theorem onGrid?_cases (tie : Tie) (s : Nat) (e k : Int) :
    (onGrid? tie s e k = some (lowerNeighbour s e k) ∧ FitsBelow s e k) ∨
      (onGrid? tie s e k = some (lowerNeighbour s e k + 1) ∧ FitsAbove s e k) ∨
      (onGrid? tie s e k = none ∧ ¬ FitsBelow s e k ∧ ¬ FitsAbove s e k) := by
  have hquarters : (if (decide (s = Nat.pow 2 52) && decide (e > minExponent)) = true then 1 else 2)
      = quartersBelow s e := by
    unfold quartersBelow
    congr 1
    simp
  unfold FitsBelow FitsAbove lowerNeighbour
  unfold onGrid?
  rcases commonUnit k (e - 2) with ⟨ten, two⟩
  dsimp only
  rw [hquarters, ← fits_iff, ← fits_iff]
  -- What is found depends on which of the two neighbours fit, and on the tie if both do.
  generalize (if s % 2 = 0 then decide (_ ≤ quartersBelow s e * two) else _) = below
  generalize (if s % 2 = 0 then decide (_ ≤ 2 * two) else _) = above
  cases below with
  | false =>
    cases above with
    | false => exact .inr (.inr ⟨rfl, Bool.false_ne_true, Bool.false_ne_true⟩)
    | true => exact .inr (.inl ⟨rfl, rfl⟩)
  | true =>
    cases above with
    | false => exact .inl ⟨rfl, rfl⟩
    | true =>
      dsimp only
      split
      · exact .inl ⟨rfl, rfl⟩
      · exact .inr (.inl ⟨rfl, rfl⟩)

/-- A lower neighbour that fits is in the interval of the value. -/
theorem FitsBelow.roundsTo (h : FitsBelow s e k) : RoundsTo (lowerNeighbour s e k * 10 ^ k) s e :=
  roundsTo_below (commonUnit_spec k e) (quartersBelow_eq s e) (Nat.div_mul_le_self _ _) h.1 h.2

/-- The upper neighbour is above the value. -/
theorem lt_upperNeighbour (s : Nat) (e k : Int) :
    4 * s * (commonUnit k (e - 2)).2 < (lowerNeighbour s e k + 1) * (commonUnit k (e - 2)).1 := by
  rw [Nat.mul_comm (lowerNeighbour s e k + 1)]
  exact Nat.lt_mul_div_succ _ (commonUnit_spec k e).ten_pos

/-- An upper neighbour that fits is in the interval, too. -/
theorem FitsAbove.roundsTo (h : FitsAbove s e k) :
    RoundsTo ((lowerNeighbour s e k + 1 : Nat) * 10 ^ k) s e :=
  roundsTo_above (commonUnit_spec k e) (lt_upperNeighbour s e k).le h.1 h.2

/-- Whatever is found on a grid reads back. -/
theorem roundsTo_of_onGrid? {tie : Tie} (h : onGrid? tie s e k = some d) : RoundsTo (d * 10 ^ k) s e := by
  rcases onGrid?_cases tie s e k with ⟨heq, hfits⟩ | ⟨heq, hfits⟩ | ⟨heq, -⟩
  · rw [heq] at h
    obtain rfl := Option.some.inj h
    exact hfits.roundsTo
  · rw [heq] at h
    obtain rfl := Option.some.inj h
    exact hfits.roundsTo
  · rw [heq] at h
    exact absurd h (by simp)

/-- On a grid that is finer than the interval something is found. -/
theorem exists_onGrid? (tie : Tie) (hs : s ≠ 0) (hfine : 4 * (10 : ℚ) ^ k < 3 * 2 ^ e) :
    ∃ d, d ≠ 0 ∧ onGrid? tie s e k = some d := by
  have hunit := commonUnit_spec k e
  have hlt := lt_upperNeighbour s e k
  have hdiv : lowerNeighbour s e k * (commonUnit k (e - 2)).1 ≤ 4 * s * (commonUnit k (e - 2)).2 :=
    Nat.div_mul_le_self _ _
  -- A step of the grid in common units.
  have hstep : (commonUnit k (e - 2)).1 < 3 * (commonUnit k (e - 2)).2 := by
    obtain ⟨u, hu, hten, htwo⟩ := hunit.exists_unit
    rw [hten, htwo] at hfine
    have : ((commonUnit k (e - 2)).1 : ℚ) < 3 * (commonUnit k (e - 2)).2 := by nlinarith
    exact_mod_cast this
  have hpos : 0 < lowerNeighbour s e k := by
    refine Nat.div_pos ?_ hunit.ten_pos
    have : 1 * (commonUnit k (e - 2)).2 ≤ s * (commonUnit k (e - 2)).2 :=
      Nat.mul_le_mul_right _ (Nat.pos_of_ne_zero hs)
    rw [Nat.mul_assoc]
    omega
  rcases onGrid?_cases tie s e k with ⟨heq, -⟩ | ⟨heq, -⟩ | ⟨-, hbelow, habove⟩
  · exact ⟨_, by omega, heq⟩
  · exact ⟨_, by omega, heq⟩
  · -- Both neighbours would be too far away.
    unfold FitsBelow Fits at hbelow
    unfold FitsAbove Fits at habove
    have hquarters : 1 ≤ quartersBelow s e := by
      unfold quartersBelow
      split <;> norm_num
    have := Nat.mul_le_mul_right (commonUnit k (e - 2)).2 hquarters
    rw [Nat.add_mul] at habove hlt
    omega

/-! ## The search -/

/-- Taking zeros off the end of a decimal leaves its value. -/
theorem Numeral.strip_spec (d : Numeral) (hd : d.digits ≠ 0) :
    d.strip.digits ≠ 0 ∧ d.strip.value = d.value := by
  unfold Numeral.strip
  generalize (Nat.toDigits 10 d.digits).length = n
  induction n generalizing d with
  | zero => exact ⟨hd, rfl⟩
  | succ n ih =>
    rw [Numeral.strip.go]
    split
    next h =>
      obtain ⟨-, hmod⟩ : d.digits ≠ 0 ∧ d.digits % 10 = 0 := by simpa using h
      have hdigits : d.digits = 10 * (d.digits / 10) := by omega
      obtain ⟨hne, hvalue⟩ := ih ⟨d.digits / 10, d.exponent + 1⟩ (by simp only; omega)
      refine ⟨hne, hvalue.trans ?_⟩
      show ((d.digits / 10 : Nat) : ℚ) * 10 ^ (d.exponent + 1) = d.digits * 10 ^ d.exponent
      rw [zpow_add_one₀ (by norm_num)]
      conv_rhs => rw [hdigits]
      push_cast
      ring
    · exact ⟨hd, rfl⟩

/-- The search comes to its end on a grid that is fine enough, if it gets that far. -/
theorem shortest_go_spec (tie : Tie) (hs : s ≠ 0) :
    ∀ (n : Nat) (k : Int), 4 * (10 : ℚ) ^ (k - n) < 3 * 2 ^ e →
      (shortest.go tie s e (n + 1) k).digits ≠ 0 ∧
        RoundsTo (shortest.go tie s e (n + 1) k).value s e := by
  -- What is found on a grid loses its zeros at the end, and keeps its value.
  have hfound : ∀ n k d, d ≠ 0 → onGrid? tie s e k = some d →
      (shortest.go tie s e (n + 1) k).digits ≠ 0 ∧
        RoundsTo (shortest.go tie s e (n + 1) k).value s e := by
    intro n k d hd h
    obtain ⟨hne, hvalue⟩ := Numeral.strip_spec ⟨d, k⟩ hd
    have heq : shortest.go tie s e (n + 1) k = Numeral.strip ⟨d, k⟩ := by
      rw [shortest.go, h]
      split
      next h0 => exact absurd (Option.some.inj h0) hd
      next h0 => rw [Option.some.inj h0]
      next h0 => exact absurd h0 (by simp)
    rw [heq, hvalue]
    exact ⟨hne, roundsTo_of_onGrid? h⟩
  intro n
  induction n with
  | zero =>
    intro k hfine
    obtain ⟨d, hd, h⟩ := exists_onGrid? tie hs (by simpa using hfine)
    exact hfound 0 k d hd h
  | succ n ih =>
    intro k hfine
    by_cases h : ∃ d, d ≠ 0 ∧ onGrid? tie s e k = some d
    · obtain ⟨d, hd, h⟩ := h
      exact hfound (n + 1) k d hd h
    · have heq : shortest.go tie s e (n + 1 + 1) k = shortest.go tie s e (n + 1) (k - 1) := by
        rw [shortest.go]
        split
        · rfl
        next d hd hgrid => exact absurd ⟨d, fun h0 => hd (h0 ▸ rfl), hgrid⟩ h
        · rfl
      rw [heq]
      refine ih (k - 1) ?_
      rwa [show k - 1 - n = k - (n + 1 : Nat) by push_cast; omega]

/-! ## The last grid -/

/-- By `10 ^ 3 < 2 ^ 10`. -/
theorem ten_pow_lt {i m : Nat} (h : 10 * i + 2 ≤ 3 * m) : 4 * 10 ^ i < 3 * 2 ^ m := by
  refine lt_of_pow_lt_pow_left₀ 3 (Nat.zero_le _) ?_
  calc (4 * 10 ^ i) ^ 3 = 64 * (10 ^ 3) ^ i := by rw [mul_pow, ← pow_mul, ← pow_mul, mul_comm i]; norm_num
    _ ≤ 64 * (2 ^ 10) ^ i := Nat.mul_le_mul_left _ (Nat.pow_le_pow_left (by norm_num) i)
    _ = 16 * 2 ^ (10 * i + 2) := by rw [← pow_mul, pow_add]; ring
    _ ≤ 16 * 2 ^ (3 * m) := Nat.mul_le_mul_left _ (Nat.pow_le_pow_right (by norm_num) h)
    _ < 27 * 2 ^ (3 * m) := Nat.mul_lt_mul_of_pos_right (by norm_num) (Nat.pow_pos (by norm_num))
    _ = (3 * 2 ^ m) ^ 3 := by rw [mul_pow, ← pow_mul, mul_comm m]; norm_num

/-- By `2 ^ 43 < 10 ^ 13`. -/
theorem two_pow_lt {i w : Nat} (h : 13 * w + 6 ≤ 43 * i) : 4 * 2 ^ w < 3 * 10 ^ i := by
  refine lt_of_pow_lt_pow_left₀ 13 (Nat.zero_le _) ?_
  calc (4 * 2 ^ w) ^ 13 = 2 ^ 20 * 2 ^ (13 * w + 6) := by
          rw [mul_pow, ← pow_mul, mul_comm w, pow_add]; ring
    _ ≤ 2 ^ 20 * 2 ^ (43 * i) := Nat.mul_le_mul_left _ (Nat.pow_le_pow_right (by norm_num) h)
    _ < 3 ^ 13 * 2 ^ (43 * i) := Nat.mul_lt_mul_of_pos_right (by norm_num) (Nat.pow_pos (by norm_num))
    _ = 3 ^ 13 * (2 ^ 43) ^ i := by rw [← pow_mul]
    _ ≤ 3 ^ 13 * (10 ^ 13) ^ i := Nat.mul_le_mul_left _ (Nat.pow_le_pow_left (by norm_num) i)
    _ = (3 * 10 ^ i) ^ 13 := by rw [mul_pow, ← pow_mul, ← pow_mul, mul_comm i]

theorem two_zpow_lt {i w : Nat} (h : 13 * w + 6 ≤ 43 * i) :
    (2 : ℚ) ^ (w : Int) < 10 ^ (i : Int) := by
  have hlt : 4 * (2 : ℚ) ^ w < 3 * 10 ^ i := by exact_mod_cast two_pow_lt h
  have hpos : (0 : ℚ) < 2 ^ w := by positivity
  rw [zpow_natCast, zpow_natCast]
  linarith

/-- Below one, three quarters of a power of two are left as room. -/
theorem ten_zpow_neg_lt {i w : Nat} (h : 13 * w + 6 ≤ 43 * i) :
    4 * (10 : ℚ) ^ (-(i : Int)) < 3 * 2 ^ (-(w : Int)) := by
  have hlt : 4 * (2 : ℚ) ^ w < 3 * 10 ^ i := by exact_mod_cast two_pow_lt h
  rw [zpow_neg, zpow_neg, zpow_natCast, zpow_natCast, ← div_eq_mul_inv, ← div_eq_mul_inv,
    div_lt_div_iff₀ (by positivity) (by positivity)]
  exact hlt

/-- Nineteen places below the estimate of the first digit, the grid is finer than the interval. -/
theorem fine_lastGrid (hc : Canonical s e) : 4 * (10 : ℚ) ^ (topPlace s e - 19) < 3 * 2 ^ e := by
  have hlog : s.log2 ≤ 52 := by
    by_cases hs : s = 0
    · rw [hs]
      decide
    · exact Nat.le_of_lt_succ ((Nat.log2_lt hs).mpr hc.lt)
  have hleast := hc.least
  have hgreatest := hc.greatest
  unfold minExponent at hleast
  unfold maxExponent at hgreatest
  obtain ⟨j, hj⟩ : ∃ j, topPlace s e - 19 = j := ⟨_, rfl⟩
  have htop : 100000 * (j + 18) ≤ 30103 * (e + 53) := by
    rw [← hj]
    unfold topPlace
    omega
  rw [hj]
  rcases lt_or_ge j 0 with h | h
  case inr =>
    obtain ⟨i, rfl⟩ := Int.eq_ofNat_of_zero_le h
    obtain ⟨m, rfl⟩ := Int.eq_ofNat_of_zero_le (show 0 ≤ e by omega)
    have := ten_pow_lt (show 10 * i + 2 ≤ 3 * m by omega)
    rw [zpow_natCast, zpow_natCast]
    exact_mod_cast this
  case inl =>
    obtain ⟨i, hi⟩ := Int.eq_ofNat_of_zero_le (neg_nonneg.mpr h.le)
    obtain rfl : j = -(i : Int) := by omega
    -- Compared with `2 ^ (-w)`, where `w` is zero unless the exponent is negative.
    obtain ⟨w, hw, hwi⟩ : ∃ w : Nat, -(w : Int) ≤ e ∧ 13 * w + 6 ≤ 43 * i :=
      ⟨(-e).toNat, by omega, by omega⟩
    have hle := two_zpow_le hw
    linarith [ten_zpow_neg_lt hwi]

/-- The shortest decimal of a value is in its interval. -/
theorem shortest_spec (tie : Tie) (hs : s ≠ 0) (hc : Canonical s e) :
    (shortest tie s e).digits ≠ 0 ∧ RoundsTo (shortest tie s e).value s e :=
  shortest_go_spec tie hs 19 (topPlace s e) (fine_lastGrid hc)

/-- The shortest decimal of a value that is not whole has a fraction. -/
theorem exponent_shortest_neg (tie : Tie) {b : Nat} (hs : s ≠ 0) (hc : Canonical s (-(b : Int)))
    (hwhole : ¬ 2 ^ b ∣ s) : (shortest tie s (-(b : Int))).exponent < 0 := by
  obtain ⟨-, hround⟩ := shortest_spec tie hs hc
  by_contra hneg
  obtain ⟨k, hk⟩ := Int.eq_ofNat_of_zero_le (not_lt.mp hneg)
  have hroom := roomBelow_le s (-(b : Int))
  -- A whole number in the interval would be the value itself.
  refine hwhole ⟨(shortest tie s (-(b : Int))).digits * 10 ^ k, ?_⟩
  have hvalue : (shortest tie s (-(b : Int))).value
      = ((shortest tie s (-(b : Int))).digits * 10 ^ k : Nat) := by
    unfold Numeral.value
    rw [hk, zpow_natCast]
    push_cast
    rfl
  have hpos : (0 : ℚ) < 2 ^ b := by positivity
  have hlower := hround.lower
  have hupper := hround.upper
  rw [hvalue, zpow_neg, zpow_natCast, ← div_eq_mul_inv] at hlower hupper
  rw [div_le_iff₀ hpos] at hlower
  rw [le_div_iff₀ hpos] at hupper
  generalize (shortest tie s (-(b : Int))).digits * 10 ^ k = N at hlower hupper ⊢
  have hlow : 2 * (s : ℚ) ≤ 2 * (2 ^ b * N) + 1 := by linarith
  have hup : 2 * (2 ^ b * (N : ℚ)) ≤ 2 * s + 1 := by linarith
  have hlow : 2 * s ≤ 2 * (2 ^ b * N) + 1 := by exact_mod_cast hlow
  have hup : 2 * (2 ^ b * N) ≤ 2 * s + 1 := by exact_mod_cast hup
  omega

/-! ## Reading -/

/-- What a decimal is read as is of the format. -/
theorem canonical_of_ofDecimal (h : ofDecimal d k = .finite s e) : Canonical s e := by
  have hzero : (zero = .finite s e) → Canonical s e := by
    intro h
    obtain ⟨rfl, rfl⟩ := Magnitude.finite.inj h
    exact canonical_zero
  unfold ofDecimal at h
  split at h
  · exact hzero h
  dsimp only at h
  split at h
  · exact absurd h (by simp)
  split at h
  · exact hzero h
  split at h
  · exact canonical_of_ofRatio Nat.one_pos h
  · exact canonical_of_ofRatio (Nat.pow_pos (by norm_num)) h

/-- A number has as many digits as its powers of ten say. -/
theorem digits_bounds (hd : d ≠ 0) :
    (10 : ℚ) ^ ((Nat.toDigits 10 d).length - 1 : Int) ≤ d
      ∧ (d : ℚ) < 10 ^ ((Nat.toDigits 10 d).length : Int) := by
  have hpos : 0 < (Nat.toDigits 10 d).length := Nat.length_toDigits_pos
  constructor
  · obtain ⟨n, hn⟩ := Nat.exists_eq_add_one.mpr hpos
    rw [hn]
    push_cast
    rw [add_sub_cancel_right, zpow_natCast]
    by_cases h0 : n = 0
    · rw [h0, pow_zero]
      exact_mod_cast Nat.pos_of_ne_zero hd
    · have hnot : ¬ (Nat.toDigits 10 d).length ≤ n := by omega
      rw [Nat.length_toDigits_le_iff (by norm_num) (Nat.pos_of_ne_zero h0)] at hnot
      exact_mod_cast not_lt.mp hnot
  · rw [zpow_natCast]
    exact_mod_cast (Nat.length_toDigits_le_iff (by norm_num) hpos).mp le_rfl

/-- The interval of a finite value does not reach up to where a decimal is taken for infinity. -/
theorem Magnitude.RoundsTo.width_le (hc : Canonical s e) (hd : d ≠ 0) (h : RoundsTo (d * 10 ^ k) s e) :
    k + (Nat.toDigits 10 d).length ≤ 310 := by
  obtain ⟨hlow, -⟩ := digits_bounds hd
  have hten := ten_zpow_pos k
  have htwo := two_zpow_pos e
  by_contra hgt
  have hs : (s : ℚ) + 1 ≤ 2 ^ 53 := by exact_mod_cast hc.lt
  have hupper := calc (s + 1 / 2 : ℚ) * 2 ^ e
    _ ≤ 2 ^ 53 * 2 ^ e := by gcongr; linarith
    _ ≤ 2 ^ 53 * 2 ^ maxExponent := by
        have := two_zpow_le hc.greatest
        gcongr
    _ = 2 ^ ((1024 : Nat) : Int) := by
        rw [← zpow_natCast, ← zpow_add₀ (by norm_num)]
        rfl
    _ < 10 ^ ((310 : Nat) : Int) := two_zpow_lt (by norm_num)
    _ ≤ 10 ^ ((Nat.toDigits 10 d).length - 1 + k) := zpow_le_zpow_right₀ (by norm_num) (by omega)
    _ ≤ d * 10 ^ k := by
        rw [zpow_add₀ (by norm_num)]
        gcongr
  exact absurd h.upper (not_le.mpr hupper)

/-- The interval of a value other than zero does not reach down to where a decimal is taken for zero. -/
theorem Magnitude.RoundsTo.le_width (hs : s ≠ 0) (hc : Canonical s e) (hd : d ≠ 0) (h : RoundsTo (d * 10 ^ k) s e) :
    -330 ≤ k + (Nat.toDigits 10 d).length := by
  obtain ⟨-, hup⟩ := digits_bounds hd
  have hten := ten_zpow_pos k
  by_contra hlt
  have hs : (1 : ℚ) ≤ s := by exact_mod_cast Nat.pos_of_ne_zero hs
  have hlower := calc (d : ℚ) * 10 ^ k
    _ ≤ 10 ^ ((Nat.toDigits 10 d).length + k) := by
        rw [zpow_add₀ (by norm_num)]
        gcongr
    _ ≤ 10 ^ (-((331 : Nat) : Int)) := zpow_le_zpow_right₀ (by norm_num) (by omega)
    _ < 2 ^ (-((1075 : Nat) : Int)) := by
        have := ten_zpow_neg_lt (show 13 * 1075 + 6 ≤ 43 * 331 by norm_num)
        have := two_zpow_pos (-((1075 : Nat) : Int))
        linarith
    _ = 1 / 2 * 2 ^ minExponent := by
        rw [show minExponent = -((1075 : Nat) : Int) + 1 from rfl, two_zpow_succ]
        ring
    _ ≤ (s - roomBelow s e) * 2 ^ e := by
        have hhalf : 1 / 2 ≤ s - roomBelow s e := by linarith [roomBelow_le s e]
        exact mul_le_mul hhalf (two_zpow_le hc.least) (two_zpow_pos _).le (by linarith)
  exact absurd h.lower (not_le.mpr hlower)

/-- A decimal in the interval of a value other than zero is read as this value. -/
theorem ofDecimal_eq_finite (hs : s ≠ 0) (hc : Canonical s e) (hd : d ≠ 0)
    (h : RoundsTo (d * 10 ^ k) s e) : ofDecimal d k = .finite s e := by
  unfold ofDecimal
  rw [if_neg hd]
  dsimp only
  rw [if_neg (not_lt.mpr (h.width_le hc hd)), if_neg (not_lt.mpr (h.le_width hs hc hd))]
  cases k with
  | ofNat n =>
    refine ofRatio_eq_finite (Nat.mul_ne_zero hd (Nat.pow_pos (by norm_num)).ne') Nat.one_pos hc ?_
    rw [Nat.pow_eq]
    push_cast
    rw [div_one]
    exact h
  | negSucc n =>
    refine ofRatio_eq_finite hd (Nat.pow_pos (by norm_num)) hc ?_
    rw [Nat.pow_eq]
    push_cast
    rw [zpow_negSucc, ← div_eq_mul_inv] at h
    exact h

/-- The shortest decimal of a value is read as this value. -/
theorem ofDecimal_shortest (tie : Tie) (hs : s ≠ 0) (hc : Canonical s e) :
    ofDecimal (shortest tie s e).digits (shortest tie s e).exponent = .finite s e := by
  obtain ⟨hne, hround⟩ := shortest_spec tie hs hc
  exact ofDecimal_eq_finite hs hc hne hround

end QueryModule.Decimal
