import ComplexityMeter.Decimal.Dyadic

/-!
# Doubles beside whole numbers

Whole numbers have no size limit and doubles do. Comparing the two is exact, the quotient of two
whole numbers is rounded once, and a whole number far enough out has no double at all.
-/

namespace ComplexityMeter.Decimal

/-- How a whole number compares with a double; a NaN compares with nothing. -/
def Reading.compareInt (n : Int) : Reading → Option Ordering
  | .finite d => some (compare (n * d.fraction.2) d.numerator)
  | .infinite negative => some (if negative then .gt else .lt)
  | .nan => none

/-- The fraction `num / den` in units of `2 ^ exponent`. -/
def inUnits (num den : Nat) : (exponent : Int) → Nat × Nat
  | .ofNat e => (num, den * Nat.pow 2 e)
  | .negSucc e => (num * Nat.pow 2 (e + 1), den)

/-- The exponent of the last bit that a double has room for near `num / den`. A double has
fifty-three bits, fewer next to zero. -/
def lastBit (num den : Nat) : Int :=
  let fine := (num.log2 : Int) - den.log2 - 53
  let (n, d) := inUnits num den fine
  max (if n / d < Nat.pow 2 53 then fine else fine + 1) (-1074)

/-- The binary fraction nearest to `num / den` among those with as many bits as a double. -/
def nearestRatio (num den : Nat) : Dyadic :=
  let e := lastBit num den
  let (n, d) := inUnits num den e
  ⟨false, roundDiv n d, e⟩

/-- The double nearest to `num / den`; infinity beyond all doubles. -/
def ratioToFloat (num den : Nat) : Float :=
  let d := nearestRatio num den
  (Float.ofNat d.mantissa).scaleB d.exponent

end ComplexityMeter.Decimal
