import QueryModule.Decimal.Binary64

/-!
# The shortest decimal that reads back

Every finite value of the binary format stands for an interval of real numbers: those that round to
it. Of all decimals in the interval, `shortest` gives one with the fewest digits and, among these, the
one nearest to the value. Which of two equally near ones it gives is a choice that each notation makes
for itself. The interval includes its ends exactly when the significand is even, because a tie rounds
to the even significand.
-/

namespace QueryModule.Decimal

/-- The decimal number `digits · 10 ^ exponent`. -/
structure Numeral where
  digits : Nat
  exponent : Int
  deriving DecidableEq, Repr

/-- The same number with as few digits as possible. The count of digits bounds the work. -/
def Numeral.strip (d : Numeral) : Numeral := go (Nat.toDigits 10 d.digits).length d
where
  /-- Drops at most so many zeros at the end of the digits. -/
  go : Nat → Numeral → Numeral
    | 0, d => d
    | n + 1, d =>
      if d.digits ≠ 0 && d.digits % 10 = 0 then go n ⟨d.digits / 10, d.exponent + 1⟩ else d

/-- The two factors that bring multiples of `10 ^ k` and multiples of `2 ^ s` to a common unit. -/
def commonUnit (k s : Int) : Nat × Nat :=
  (Nat.pow 10 k.toNat * Nat.pow 2 (-s).toNat, Nat.pow 2 s.toNat * Nat.pow 10 (-k).toNat)

/-- Which of two equally near decimals is chosen: the larger, or the one with the even last digit. -/
inductive Tie where
  | up
  | even
  deriving DecidableEq, Repr

/-- Is the upper one of two neighbours chosen, `d` being the lower one? -/
def Tie.choosesUpper (tie : Tie) (d : Nat) : Bool :=
  match tie with
  | .up => true
  | .even => d % 2 = 1

/-- The multiple of `10 ^ k` that reads back as `significand · 2 ^ exponent` and is nearest to it, if
one of the value's two neighbours on that grid reads back. Distances are measured in quarters of
the value's last bit; below a power of two the interval is only half as wide. -/
def onGrid? (tie : Tie) (significand : Nat) (exponent : Int) (k : Int) : Option Nat :=
  let (ten, two) := commonUnit k (exponent - 2)
  let value := 4 * significand * two
  let atPower : Bool := significand = Nat.pow 2 52 && exponent > Magnitude.minExponent
  let below := (if atPower then 1 else 2) * two
  let above := 2 * two
  let fits (gap room : Nat) : Bool := if significand % 2 = 0 then gap ≤ room else gap < room
  let d := value / ten
  let gapDown := value - d * ten
  let gapUp := (d + 1) * ten - value
  match fits gapDown below, fits gapUp above with
  | true, true =>
    some (if gapDown < gapUp || (gapDown = gapUp && !tie.choosesUpper d) then d else d + 1)
  | true, false => some d
  | false, true => some (d + 1)
  | false, false => none

/-- An upper bound for the position of the first digit of `significand · 2 ^ exponent`, at most two
places too high. -/
def topPlace (significand : Nat) (exponent : Int) : Int :=
  ((exponent + significand.log2 + 1) * 30103) / 100000 + 1

/-- The shortest decimal for a finite value other than zero, on grids from coarse to fine. Seventeen
digits always suffice, and the start is at most two places too high. -/
def shortest (tie : Tie) (significand : Nat) (exponent : Int) : Numeral :=
  go 20 (topPlace significand exponent)
where
  /-- Tries the grids `10 ^ k`, `10 ^ (k - 1)`, … -/
  go : Nat → Int → Numeral
    | 0, k => ⟨0, k⟩
    | n + 1, k =>
      match onGrid? tie significand exponent k with
      | some 0 => go n (k - 1)
      | some d => Numeral.strip ⟨d, k⟩
      | none => go n (k - 1)

/-- The digits of a decimal. -/
def Numeral.text (d : Numeral) : List Char := Nat.toDigits 10 d.digits

/-- The number of digits in front of the point; it is not positive when zeros follow the point. -/
def Numeral.point (d : Numeral) : Int := d.text.length + d.exponent

/-- A decimal written without an exponent: zeros fill the places up to the point, and there is a point
only in front of further digits. -/
def Numeral.positional (d : Numeral) : String :=
  let text := d.text
  match d.exponent with
  | .ofNat e => String.ofList (text ++ List.replicate e '0')
  | .negSucc e =>
    let places := e + 1
    let padded := List.replicate (places + 1 - text.length) '0' ++ text
    String.ofList (padded.take (padded.length - places) ++ '.' :: padded.drop (padded.length - places))

/-- The text of a value: its shortest decimal without an exponent, ties going up. -/
def Binary64.text (x : Binary64) : String :=
  let sign := if x.negative then "-" else ""
  match x.magnitude with
  | .infinite => sign ++ "inf"
  | .finite 0 _ => sign ++ "0"
  | .finite s e => sign ++ (shortest .up s e).positional

end QueryModule.Decimal
