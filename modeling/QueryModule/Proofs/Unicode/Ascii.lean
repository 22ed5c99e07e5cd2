import Mathlib
import QueryModule.Unicode.Alphanumeric
import QueryModule.Unicode.CaseMapping

/-!
# The first 128 characters

Within ASCII the classes of characters and the lower-case mapping of the Unicode standard are the plain
ones: the capitals are `A` to `Z`, the small letters `a` to `z`, and besides these only the digits are
alphanumeric.
-/

namespace QueryModule.Unicode

/-- The character belongs to ASCII. -/
def IsAscii (c : Char) : Prop := c.toNat < 128

instance (c : Char) : Decidable (IsAscii c) := inferInstanceAs (Decidable (c.toNat < 128))

/-- The capitals of ASCII are a stretch of codes. -/
theorem isUpper_iff_toNat {c : Char} : c.isUpper = true ↔ 0x41 ≤ c.toNat ∧ c.toNat ≤ 0x5A := by
  simp only [Char.isUpper, decide_eq_true_eq, ge_iff_le, UInt32.le_iff_toNat_le]
  exact Iff.rfl

theorem isLower_iff_toNat {c : Char} : c.isLower = true ↔ 0x61 ≤ c.toNat ∧ c.toNat ≤ 0x7A := by
  simp only [Char.isLower, Bool.and_eq_true, decide_eq_true_eq, ge_iff_le, UInt32.le_iff_toNat_le]
  exact Iff.rfl

/-- Letters and digits are three stretches. -/
theorem isAlphanum_iff_toNat {c : Char} :
    c.isAlphanum = true ↔
      (0x30 ≤ c.toNat ∧ c.toNat ≤ 0x39) ∨ (0x41 ≤ c.toNat ∧ c.toNat ≤ 0x5A) ∨
        (0x61 ≤ c.toNat ∧ c.toNat ≤ 0x7A) := by
  unfold Char.isAlphanum Char.isAlpha
  rw [Bool.or_eq_true, Bool.or_eq_true, isUpper_iff_toNat, isLower_iff_toNat, Char.isDigit_iff_toNat]
  show (_ ∨ _) ∨ (0x30 ≤ c.toNat ∧ c.toNat ≤ 0x39) ↔ _
  omega

/-- What the library takes for a letter or a digit belongs to ASCII. -/
theorem isAscii_of_isAlphanum {c : Char} (h : c.isAlphanum = true) : IsAscii c := by
  have hcode := isAlphanum_iff_toNat.mp h
  unfold IsAscii
  omega

/-! ## Sets of code points -/

/-- A code is in a set when it is in the first stretch, or behind it and in the others. -/
theorem containsCode_stretch_iff {first last n : Nat} {rest : CodeSet} :
    CodeSet.containsCode (⟨first, last, 1⟩ :: rest) n = true ↔
      (first ≤ n ∧ n ≤ last) ∨ (last < n ∧ rest.containsCode n = true) := by
  rw [CodeSet.containsCode]
  split
  next h => simp [CodeRange.contains, h, Nat.mod_one, Nat.not_lt.mpr h]
  next h => simp [h, Nat.lt_of_not_le h]

/-- The search ends at a stretch that lies beyond the code point. -/
theorem containsCode_of_lt {first last step n : Nat} {rest : CodeSet} (hfirst : n < first)
    (hlast : first ≤ last) : CodeSet.containsCode (⟨first, last, step⟩ :: rest) n = false := by
  rw [CodeSet.containsCode, if_pos (show n ≤ last by omega)]
  simp [CodeRange.contains, Nat.not_le.mpr hfirst]

/-! ## Characters -/

set_option maxRecDepth 4000 in
theorem first_of_mem_lowerShifts :
    ∀ s ∈ lowerShifts, (s.first = 0x41 ∧ s.last = 0x5A) ∨ 128 ≤ s.first := by
  decide

namespace IsAscii

variable {c : Char}

/-- Within ASCII, the capitals of the tables are those of the library. -/
theorem isUpper_eq (hc : IsAscii c) : isUpper c = c.isUpper := by
  have hcode : c.toNat < 128 := hc
  rw [Bool.eq_iff_iff, isUpper_iff_toNat]
  show CodeSet.containsCode (⟨0x41, 0x5A, 1⟩ :: ⟨0xC0, 0xD6, 1⟩ :: uppercase.drop 2) c.toNat = true
    ↔ _
  rw [containsCode_stretch_iff, containsCode_of_lt (by omega) (by omega)]
  simp

theorem isLower_eq (hc : IsAscii c) : isLower c = c.isLower := by
  have hcode : c.toNat < 128 := hc
  rw [Bool.eq_iff_iff, isLower_iff_toNat]
  show CodeSet.containsCode (⟨0x61, 0x7A, 1⟩ :: ⟨0xAA, 0xAA, 1⟩ :: lowercase.drop 2) c.toNat = true
    ↔ _
  rw [containsCode_stretch_iff, containsCode_of_lt (by omega) (by omega)]
  simp

/-- Within ASCII, the letters and digits of the tables are those of the library. -/
theorem isAlphanumeric_eq (hc : IsAscii c) : isAlphanumeric c = c.isAlphanum := by
  have hcode : c.toNat < 128 := hc
  rw [Bool.eq_iff_iff, isAlphanum_iff_toNat]
  show CodeSet.containsCode (⟨0x30, 0x39, 1⟩ :: ⟨0x41, 0x5A, 1⟩ :: ⟨0x61, 0x7A, 1⟩
    :: ⟨0xAA, 0xAA, 1⟩ :: alphanumeric.drop 4) c.toNat = true ↔ _
  rw [containsCode_stretch_iff, containsCode_stretch_iff, containsCode_stretch_iff,
    containsCode_of_lt (by omega) (by omega)]
  simp only [Bool.false_eq_true, and_false, or_false]
  omega

/-- No ASCII character is both a capital and a small letter. -/
theorem isUpper_eq_false (hc : IsAscii c) (h : Unicode.isLower c = true) :
    Unicode.isUpper c = false := by
  rw [hc.isLower_eq] at h
  rw [hc.isUpper_eq]
  exact Bool.eq_false_iff.mpr (Char.not_isUpper_of_isLower h)

theorem isLower_eq_false (hc : IsAscii c) (h : Unicode.isUpper c = true) :
    Unicode.isLower c = false := by
  rw [hc.isUpper_eq] at h
  rw [hc.isLower_eq]
  exact Bool.eq_false_iff.mpr (Char.not_isLower_of_isUpper h)

/-- Only the first of the shifts begins within ASCII, that of the capitals, and no expansion does. -/
theorem lower_eq_self (hc : IsAscii c) (h : c.isUpper = false) : lower c = [c] := by
  have hcode : c.toNat < 128 := hc
  have hshifts : lowerShifts.find? (·.range.contains c.toNat) = none := by
    rw [List.find?_eq_none]
    intro s hs hcontains
    have hupper : ¬ (0x41 ≤ c.toNat ∧ c.toNat ≤ 0x5A) := by
      rw [← isUpper_iff_toNat, h]
      decide
    have hbounds : s.first ≤ c.toNat ∧ c.toNat ≤ s.last := by
      unfold CodeShift.range CodeRange.contains at hcontains
      simp only [Bool.and_eq_true, decide_eq_true_eq] at hcontains
      exact hcontains.1
    have hfirst := first_of_mem_lowerShifts s hs
    omega
  have hexpansions : lowerExpansions.lookup c.toNat = none := by
    have hne : (c.toNat == 0x130) = false := beq_eq_false_iff_ne.mpr (by omega)
    unfold lowerExpansions
    rw [List.lookup_cons, hne]
    rfl
  unfold lower mapCase
  rw [hshifts, hexpansions]

/-- The lower-case form of an ASCII character is that of the library. -/
theorem lower_eq (hc : IsAscii c) : lower c = [c.toLower] := by
  cases h : c.isUpper with
  | true =>
    have hcode := isUpper_iff_toNat.mp h
    have hshift : lowerShifts.find? (·.range.contains c.toNat) = some ⟨0x41, 0x5A, 1, 32⟩ := by
      show List.find? _ (⟨0x41, 0x5A, 1, 32⟩ :: lowerShifts.drop 1) = _
      rw [List.find?_cons_of_pos]
      simp [CodeShift.range, CodeRange.contains, hcode, Nat.mod_one]
    unfold lower mapCase
    rw [hshift, Char.toLower_eq_of_isUpper h]
    rfl
  | false =>
    rw [hc.lower_eq_self h, Char.toLower_eq_of_not_isUpper (by simp [h])]

end IsAscii

end QueryModule.Unicode
