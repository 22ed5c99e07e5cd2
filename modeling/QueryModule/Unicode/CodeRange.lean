/-!
# Sets of code points

The character properties of the Unicode standard are large but regular: they consist of stretches in
which every code point, or every second one, has the property. A `CodeSet` lists such stretches in
increasing order, so that a look-up can stop at the first stretch that begins too late. A `CodeShift`
says of a stretch that each of its members is mapped to the code point at a fixed distance.
-/

namespace QueryModule.Unicode

/-- The code points `first`, `first + step`, … up to `last`. -/
structure CodeRange where
  first : Nat
  last : Nat
  step : Nat
  deriving DecidableEq, Repr

/-- Is `n` one of the code points of the stretch? -/
def CodeRange.contains (r : CodeRange) (n : Nat) : Bool :=
  r.first ≤ n && n ≤ r.last && (n - r.first) % r.step == 0

/-- Stretches of code points in increasing order, no two of them overlapping. -/
abbrev CodeSet := List CodeRange

/-- Is `n` in one of the stretches? The search ends at the first stretch that reaches `n`. -/
def CodeSet.containsCode : CodeSet → Nat → Bool
  | [], _ => false
  | r :: rest, n => if n ≤ r.last then r.contains n else CodeSet.containsCode rest n

/-- Is the character in the set? -/
def CodeSet.contains (s : CodeSet) (c : Char) : Bool := s.containsCode c.toNat

/-- A stretch of code points that are all mapped to the code point `offset` further on. -/
structure CodeShift where
  first : Nat
  last : Nat
  step : Nat
  offset : Int
  deriving DecidableEq, Repr

/-- The code points that the shift applies to. -/
def CodeShift.range (s : CodeShift) : CodeRange := ⟨s.first, s.last, s.step⟩

/-- The code point that `n` is mapped to. -/
def CodeShift.image (s : CodeShift) (n : Nat) : Nat := ((n : Int) + s.offset).toNat

end QueryModule.Unicode
