/-!
# Binary floating-point numbers with 64 bits

A `Binary64` is a value of the usual double-precision format: an integer significand of at most 53
bits times a power of two, or infinity, with a sign. All arithmetic is on exact integers and rounds
once, to the nearest value and on a tie to the one with the even significand.
-/

namespace QueryModule.Decimal

/-- A value without its sign: `significand · 2 ^ exponent`, or too large for the format. -/
inductive Magnitude where
  | finite (significand : Nat) (exponent : Int)
  | infinite
  deriving DecidableEq, Repr

/-- A signed value; zero has a sign, too. -/
structure Binary64 where
  negative : Bool
  magnitude : Magnitude
  deriving DecidableEq, Repr

namespace Magnitude

/-- The exponent of the least positive values. -/
def minExponent : Int := -1074

/-- The exponent of the greatest finite values. -/
def maxExponent : Int := 971

/-- The value zero. -/
def zero : Magnitude := .finite 0 minExponent

/-- `significand · 2 ^ exponent` where rounding may have carried the significand to 54 bits. -/
def normalize (significand : Nat) (exponent : Int) : Magnitude :=
  let (s, e) :=
    if significand = Nat.pow 2 53 then (Nat.pow 2 52, exponent + 1) else (significand, exponent)
  if e > maxExponent then .infinite else .finite s e

/-- The quotient rounded to the nearest integer, a tie going to the even one. -/
def roundQuotient (numerator denominator : Nat) : Nat :=
  let quotient := numerator / denominator
  let twice := 2 * (numerator % denominator)
  if twice < denominator then quotient
  else if twice > denominator then quotient + 1
  else quotient + quotient % 2

/-- `numerator / (denominator · 2 ^ exponent)` as a fraction of natural numbers. -/
def scaled (numerator denominator : Nat) (exponent : Int) : Nat × Nat :=
  match exponent with
  | .ofNat e => (numerator, denominator * Nat.pow 2 e)
  | .negSucc e => (numerator * Nat.pow 2 (e + 1), denominator)

/-- The exponent on whose grid a fraction is rounded: there its significand has 53 bits, or fewer when
the exponent is the least one. A first guess from the lengths of both numbers is at most one too high. -/
def gridExponent (numerator denominator : Nat) : Int :=
  let guess : Int := (numerator.log2 : Int) - denominator.log2 - 52
  let fraction := scaled numerator denominator guess
  max minExponent (if fraction.1 < fraction.2 * Nat.pow 2 52 then guess - 1 else guess)

/-- The value nearest to a fraction whose denominator is not zero. -/
def ofRatio (numerator denominator : Nat) : Magnitude :=
  if numerator = 0 then zero
  else
    let exponent := gridExponent numerator denominator
    let fraction := scaled numerator denominator exponent
    normalize (roundQuotient fraction.1 fraction.2) exponent

/-- The value nearest to `digits · 10 ^ exponent`. Outside of the two bounds on the exponent the
answer is infinity and zero whatever the digits are, so that no huge power is computed. -/
def ofDecimal (digits : Nat) (exponent : Int) : Magnitude :=
  if digits = 0 then zero
  else
    let width : Int := (Nat.toDigits 10 digits).length
    if exponent + width > 310 then .infinite
    else if exponent + width < -330 then zero
    else
      match exponent with
      | .ofNat e => ofRatio (digits * Nat.pow 10 e) 1
      | .negSucc e => ofRatio digits (Nat.pow 10 (e + 1))

/-- A finite value as a fraction. -/
def toRatio? : Magnitude → Option (Nat × Nat)
  | .finite s (.ofNat e) => some (s * Nat.pow 2 e, 1)
  | .finite s (.negSucc e) => some (s, Nat.pow 2 (e + 1))
  | .infinite => none

/-- The product, rounded. -/
def mul (a b : Magnitude) : Magnitude :=
  match a.toRatio?, b.toRatio? with
  | some (n₁, d₁), some (n₂, d₂) => ofRatio (n₁ * n₂) (d₁ * d₂)
  | _, _ => .infinite

/-- The quotient by a finite value other than zero, rounded. -/
def div (a b : Magnitude) : Magnitude :=
  match a.toRatio?, b.toRatio? with
  | some (n₁, d₁), some (n₂, d₂) => ofRatio (n₁ * d₂) (d₁ * n₂)
  | none, _ => .infinite
  | _, none => zero

end Magnitude

end QueryModule.Decimal
