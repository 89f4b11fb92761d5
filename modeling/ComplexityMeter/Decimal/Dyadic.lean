/-!
# Doubles as exact binary fractions

A finite double is `± mantissa * 2 ^ exponent` with natural mantissa. Everything that writes or
rounds a number starts from this decoding, so that all rounding is done in exact integer
arithmetic and no decision depends on a second floating-point operation.
-/

namespace ComplexityMeter.Decimal

/-- The finite value `± mantissa * 2 ^ exponent`. -/
structure Dyadic where
  negative : Bool
  mantissa : Nat
  exponent : Int
  deriving DecidableEq, Repr

/-- What the sixty-four bits of a double stand for. -/
inductive Reading where
  | finite (value : Dyadic)
  | infinite (negative : Bool)
  | nan
  deriving DecidableEq, Repr

/-- Reads sign, biased exponent and fraction. Subnormal numbers keep the least exponent and have
no implicit leading bit. -/
def Reading.ofBits (bits : Nat) : Reading :=
  let negative := bits / Nat.pow 2 63 % 2 == 1
  let biased : Nat := bits / Nat.pow 2 52 % 2048
  let fraction : Nat := bits % Nat.pow 2 52
  if biased = 2047 then
    if fraction = 0 then .infinite negative else .nan
  else if biased = 0 then
    .finite ⟨negative, fraction, -1074⟩
  else
    .finite ⟨negative, fraction + Nat.pow 2 52, (biased : Int) - 1075⟩

def Reading.ofFloat (x : Float) : Reading :=
  Reading.ofBits x.toBits.toNat

namespace Dyadic

/-- The absolute value as a fraction of naturals, the denominator positive. -/
def fraction (d : Dyadic) : Nat × Nat :=
  match d.exponent with
  | .ofNat e => (d.mantissa * Nat.pow 2 e, 1)
  | .negSucc e => (d.mantissa, Nat.pow 2 (e + 1))

theorem fraction_denominator_pos (d : Dyadic) : 0 < d.fraction.2 := by
  unfold fraction
  split
  · exact Nat.one_pos
  · exact Nat.two_pow_pos _

def numerator (d : Dyadic) : Int :=
  if d.negative then -(d.fraction.1 : Int) else d.fraction.1

def floor (d : Dyadic) : Int :=
  Int.fdiv d.numerator d.fraction.2

def ceil (d : Dyadic) : Int :=
  -Int.fdiv (-d.numerator) d.fraction.2

def truncate (d : Dyadic) : Int :=
  Int.tdiv d.numerator d.fraction.2

end Dyadic

/-- The natural number nearest to `num / den`; of two equally near the even one. -/
def roundDiv (num den : Nat) : Nat :=
  let quotient := num / den
  let twice := 2 * (num % den)
  if twice < den then quotient
  else if den < twice then quotient + 1
  else if quotient % 2 = 0 then quotient
  else quotient + 1

/-- The integer nearest to the value, a half going to the even neighbour. -/
def Dyadic.round (d : Dyadic) : Int :=
  let magnitude : Int := roundDiv d.fraction.1 d.fraction.2
  if d.negative then -magnitude else magnitude

def digitCount (n : Nat) : Nat :=
  (Nat.toDigits 10 n).length

/-- The exponent `e` with `10 ^ e ≤ num / den < 10 ^ (e + 1)`, for a positive fraction. -/
def leadingExponent (num den : Nat) : Int :=
  if den ≤ num then
    (digitCount (num / den) : Int) - 1
  else
    let inverse := den / num
    let count := digitCount inverse
    if inverse * num = den ∧ inverse = Nat.pow 10 (count - 1) then 1 - (count : Int) else -(count : Int)

end ComplexityMeter.Decimal
