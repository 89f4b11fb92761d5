import ComplexityMeter.Decimal.Dyadic

/-!
# Decimal texts of doubles

Three ways to write a double: with the fewest digits that read back as the same double, with a
fixed number of decimal places, and with a given number of significant digits. Each computes its
digits in exact integer arithmetic; `Layout` holds what a format decides beyond the digits.
-/

namespace ComplexityMeter.Decimal

/-- The decimal `digits * 10 ^ exponent`. -/
structure Digits where
  digits : Nat
  exponent : Int
  deriving DecidableEq, Repr

def Digits.strip (d : Digits) : (fuel : Nat) → Digits
  | 0 => d
  | fuel + 1 =>
    if d.digits ≠ 0 ∧ d.digits % 10 = 0 then Digits.strip ⟨d.digits / 10, d.exponent + 1⟩ fuel
    else d

def Digits.normal (d : Digits) : Digits :=
  d.strip (digitCount d.digits)

/-- The reals that round to `mantissa * 2 ^ exponent`, as bounds in units of
`2 ^ (exponent - 2)`. Below a power of two the gap to the lower neighbour is halved. -/
def roundingBounds (d : Dyadic) : Nat × Nat :=
  let lower :=
    if d.mantissa = Nat.pow 2 52 ∧ -1074 < d.exponent then 4 * d.mantissa - 1 else 4 * d.mantissa - 2
  (lower, 4 * d.mantissa + 2)

/-- Whether `digits * 10 ^ exponent` rounds to the double. The bounds belong to it when its
mantissa is even. -/
def readsBack (d : Dyadic) (candidate : Digits) : Bool :=
  let bounds := roundingBounds d
  let unit := (⟨false, 1, d.exponent - 2⟩ : Dyadic).fraction
  let scaled : Nat × Nat :=
    match candidate.exponent with
    | .ofNat e => (candidate.digits * Nat.pow 10 e, 1)
    | .negSucc e => (candidate.digits, Nat.pow 10 (e + 1))
  let value := scaled.1 * unit.2
  let low := bounds.1 * unit.1 * scaled.2
  let high := bounds.2 * unit.1 * scaled.2
  if d.mantissa % 2 = 0 then low ≤ value && value ≤ high else low < value && value < high

/-- The two neighbours of the value on the grid of multiples of `10 ^ exponent`, and how twice the
distance to the lower one compares with the step. -/
def gridNeighbours (d : Dyadic) (exponent : Int) : Nat × Nat × Ordering :=
  let value := d.fraction
  let scaled : Nat × Nat :=
    match exponent with
    | .ofNat e => (value.1, value.2 * Nat.pow 10 e)
    | .negSucc e => (value.1 * Nat.pow 10 (e + 1), value.2)
  let lower := scaled.1 / scaled.2
  let rest := scaled.1 % scaled.2
  (lower, if rest = 0 then lower else lower + 1, compare (2 * rest) scaled.2)

/-- The best decimal on one grid: the neighbour that reads back, the nearer of two, and the even
one of two equally near. -/
def onGrid (d : Dyadic) (exponent : Int) : Option Digits :=
  let (lower, upper, nearness) := gridNeighbours d exponent
  match readsBack d ⟨lower, exponent⟩, readsBack d ⟨upper, exponent⟩ with
  | true, true =>
    match nearness with
    | .lt => some ⟨lower, exponent⟩
    | .gt => some ⟨upper, exponent⟩
    | .eq => some ⟨if lower % 2 = 0 then lower else upper, exponent⟩
  | true, false => some ⟨lower, exponent⟩
  | false, true => some ⟨upper, exponent⟩
  | false, false => none

/-- Tries one digit more as long as the grid has no decimal that reads back. -/
def shortestFrom (d : Dyadic) (lead : Int) (count : Nat) : (fuel : Nat) → Digits
  | 0 => ⟨(gridNeighbours d (lead + 1 - count)).1, lead + 1 - count⟩
  | fuel + 1 =>
    match onGrid d (lead + 1 - count) with
    | some found => found
    | none => shortestFrom d lead (count + 1) fuel

/-- The fewest digits that read back as the double, nearest to it among those; seventeen always
suffice. -/
def shortest (d : Dyadic) : Digits :=
  if d.mantissa = 0 then ⟨0, 0⟩
  else
    let value := d.fraction
    (shortestFrom d (leadingExponent value.1 value.2) 1 17).normal

/-- The given number of significant digits, rounded to nearest and a half to even, without
trailing zeros. -/
def significant (count : Nat) (d : Dyadic) : Digits :=
  if d.mantissa = 0 then ⟨0, 0⟩
  else
    let value := d.fraction
    let exponent := leadingExponent value.1 value.2 + 1 - count
    let digits :=
      match exponent with
      | .ofNat e => roundDiv value.1 (value.2 * Nat.pow 10 e)
      | .negSucc e => roundDiv (value.1 * Nat.pow 10 (e + 1)) value.2
    (⟨digits, exponent⟩ : Digits).normal

/-- What a format decides once the digits are known: from which and below which power of ten it
writes positionally, and whether a whole number keeps a fractional part. -/
structure Layout where
  least : Int
  below : Int
  wholePoint : Bool

/-- A plain number: positional from `0.0001` to below `10 ^ 16`, whole numbers end in `.0`. -/
def Layout.plain : Layout := ⟨-4, 16, true⟩

/-- A general number of six significant digits: positional below `10 ^ 6`, no bare fraction. -/
def Layout.general : Layout := ⟨-4, 6, false⟩

def zeros (n : Nat) : String :=
  String.ofList (List.replicate n '0')

def exponentText (e : Int) : String :=
  let digits := toString e.natAbs
  (if e < 0 then "e-" else "e+") ++ (if digits.length < 2 then "0" ++ digits else digits)

def Layout.write (format : Layout) (d : Digits) : String :=
  let digits := toString d.digits
  let count := digits.length
  let lead : Int := if d.digits = 0 then 0 else (count : Int) - 1 + d.exponent
  if format.least ≤ lead ∧ lead < format.below then
    if 0 ≤ d.exponent then
      digits ++ zeros d.exponent.toNat ++ (if format.wholePoint then ".0" else "")
    else
      let places := (-d.exponent).toNat
      if places < count then
        String.ofList (digits.toList.take (count - places)) ++ "."
          ++ String.ofList (digits.toList.drop (count - places))
      else
        "0." ++ zeros (places - count) ++ digits
  else
    let tail := String.ofList (digits.toList.drop 1)
    String.ofList (digits.toList.take 1) ++ (if tail.isEmpty then "" else "." ++ tail)
      ++ exponentText lead

def signText (negative : Bool) : String :=
  if negative then "-" else ""

def Reading.write (magnitude : Dyadic → String) : Reading → String
  | .finite d => signText d.negative ++ magnitude d
  | .infinite negative => signText negative ++ "inf"
  | .nan => "nan"

def shortestText (x : Float) : String :=
  (Reading.ofFloat x).write fun d => Layout.plain.write (shortest d)

def generalText (x : Float) : String :=
  (Reading.ofFloat x).write fun d => Layout.general.write (significant 6 d)

/-- A magnitude with a fixed number of places, rounded to nearest and a half to even. -/
def fixedMagnitude (places : Nat) (d : Dyadic) : String :=
  let value := d.fraction
  let scaled := roundDiv (value.1 * Nat.pow 10 places) value.2
  let whole := toString (scaled / Nat.pow 10 places)
  if places = 0 then whole
  else
    let digits := toString (scaled % Nat.pow 10 places)
    whole ++ "." ++ zeros (places - digits.length) ++ digits

/-- A fixed number of places after the point. The sign is kept also where the digits are zero. -/
def fixedText (places : Nat) (x : Float) : String :=
  (Reading.ofFloat x).write (fixedMagnitude places)

end ComplexityMeter.Decimal
