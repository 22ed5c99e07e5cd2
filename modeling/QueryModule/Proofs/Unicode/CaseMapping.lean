import QueryModule.Unicode.CaseMapping

/-!
# What a change of case can bring about

A character that no shift and no expansion leads to is the lower-case or upper-case form of itself
only (`eq_of_mem_mapCase`). Which characters these are can be decided by looking through the tables
once; the line feed is one of them, and the underscore is another.
-/

namespace QueryModule.Unicode

/-- Neither a shift nor an expansion leads to the character. -/
def Unreached (d : Char) (shifts : List CodeShift) (expansions : List (Nat × List Nat)) : Prop :=
  (∀ s ∈ shifts, (d.toNat : Int) < s.first + s.offset ∨ s.last + s.offset < (d.toNat : Int)) ∧
    ∀ e ∈ expansions, d.toNat ∉ e.2

instance (d : Char) (shifts : List CodeShift) (expansions : List (Nat × List Nat)) :
    Decidable (Unreached d shifts expansions) :=
  inferInstanceAs (Decidable (_ ∧ _))

/-- A character is not made of the code of another one; what is no code yields the null character. -/
theorem toNat_of_eq_ofNat {d : Char} {n : Nat} (hd : d ≠ '\x00') (h : d = Char.ofNat n) :
    d.toNat = n := by
  by_cases hvalid : n.isValidChar
  · rw [h, Char.ofNat, dif_pos hvalid]
    rfl
  · rw [Char.ofNat, dif_neg hvalid] at h
    exact absurd h hd

/-- A character that nothing leads to comes from itself only. -/
theorem eq_of_mem_mapCase {d c : Char} {shifts : List CodeShift}
    {expansions : List (Nat × List Nat)} (hd : d ≠ '\x00') (hunreached : Unreached d shifts expansions)
    (h : d ∈ mapCase shifts expansions c) : c = d := by
  unfold mapCase at h
  cases hfind : shifts.find? (·.range.contains c.toNat) with
  | some s =>
    -- A shift leads to a code between two bounds that the character is not between.
    rw [hfind] at h
    have hcode := toNat_of_eq_ofNat hd (List.mem_singleton.mp h)
    have hrange : s.range.contains c.toNat = true := by simpa using List.find?_some hfind
    have hfirst : s.first ≤ c.toNat ∧ c.toNat ≤ s.last := by
      unfold CodeShift.range CodeRange.contains at hrange
      simp only [Bool.and_eq_true, decide_eq_true_eq] at hrange
      exact hrange.1
    have hbetween := hunreached.1 s (List.mem_of_find?_eq_some hfind)
    unfold CodeShift.image at hcode
    have hpos : d.toNat ≠ 0 := fun hzero => hd (Char.toNat_inj.mp hzero)
    omega
  | none =>
    rw [hfind] at h
    cases hlookup : expansions.lookup c.toNat with
    | some codes =>
      -- An expansion leads to none of the codes that are listed.
      rw [hlookup] at h
      obtain ⟨n, hn, hofNat⟩ := List.mem_map.mp h
      have hcode := toNat_of_eq_ofNat hd hofNat.symm
      subst hcode
      obtain ⟨front, back, rfl, -⟩ := List.lookup_eq_some_iff.mp hlookup
      have hentry : (c.toNat, codes) ∈ front ++ (c.toNat, codes) :: back := by simp
      exact absurd hn (hunreached.2 _ hentry)
    | none =>
      rw [hlookup] at h
      exact (List.mem_singleton.mp h).symm

set_option maxRecDepth 4000 in
theorem unreached_newline_lower : Unreached '\n' lowerShifts lowerExpansions := by
  decide

set_option maxRecDepth 4000 in
theorem unreached_newline_upper : Unreached '\n' upperShifts upperExpansions := by
  decide

set_option maxRecDepth 4000 in
theorem unreached_underscore_lower : Unreached '_' lowerShifts lowerExpansions := by
  decide

set_option maxRecDepth 4000 in
theorem unreached_underscore_upper : Unreached '_' upperShifts upperExpansions := by
  decide

/-! ## Nothing vanishes -/

/-- A character changes its case to at least one, unless an expansion is empty. -/
theorem mapCase_ne_nil {shifts : List CodeShift} {expansions : List (Nat × List Nat)}
    (h : ∀ e ∈ expansions, e.2 ≠ []) (c : Char) : mapCase shifts expansions c ≠ [] := by
  unfold mapCase
  split
  · simp
  · split
    next codes hlookup =>
      obtain ⟨front, back, rfl, -⟩ := List.lookup_eq_some_iff.mp hlookup
      simpa using h (c.toNat, codes) (by simp)
    · simp

/-- No character vanishes in lower case. -/
theorem lower_ne_nil (c : Char) : lower c ≠ [] := mapCase_ne_nil (by decide) c

theorem upper_ne_nil (c : Char) : upper c ≠ [] := mapCase_ne_nil (by decide) c

end QueryModule.Unicode
