import ComplexityMeter.Decimal.Ratio
import ComplexityMeter.Decimal.Text
import ComplexityMeter.Scalar

/-!
# Numbers that remember how they were written

A number of a settings file or of a report is a whole number or a double, and keeps being what it
is: `4` stays `4` and `4.0` stays `4.0`. Whole numbers among themselves compute exactly; as soon
as a double takes part the result is a double, and so is every quotient. Order is exact between all
of them. A whole number that is too large to have a nearest double cannot meet one: what is
computed from both has no value.
-/

namespace ComplexityMeter

inductive Number where
  | int (value : Int)
  | float (value : Float)
  /-- What comes of a computation that needs the double of a whole number too large for one. -/
  | overflow
  deriving Repr, BEq, Inhabited

namespace Number

/-- The double nearest to an integer, infinity beyond all doubles. -/
def doubleOfInt (n : Int) : Float :=
  let magnitude : Float := OfScientific.ofScientific n.natAbs false 0
  if n < 0 then -magnitude else magnitude

def double? : Number → Option Float
  | .int n => (some (doubleOfInt n)).filter Float.isFinite
  | .float x => some x
  | .overflow => none

def toFloat (x : Number) : Float :=
  x.double?.getD (0.0 / 0.0)

def rounding (f : Float → Float → Float) (a b : Number) : Number :=
  match a.double?, b.double? with
  | some x, some y => .float (f x y)
  | _, _ => .overflow

/-- Applies the exact operation to two whole numbers and the rounding one otherwise. -/
def combine (exact : Int → Int → Int) (f : Float → Float → Float) (a b : Number) : Number :=
  match a, b with
  | .int m, .int n => .int (exact m n)
  | a, b => rounding f a b

def quotient (m n : Int) : Number :=
  let magnitude := Decimal.ratioToFloat m.natAbs n.natAbs
  if n = 0 then .float (doubleOfInt m / 0.0)
  else if magnitude.isFinite then
    .float (if decide (m < 0) = decide (n < 0) then magnitude else -magnitude)
  else .overflow

def divide (a b : Number) : Number :=
  match a, b with
  | .int m, .int n => quotient m n
  | a, b => rounding (· / ·) a b

instance : Add Number := ⟨combine (· + ·) (· + ·)⟩
instance : Sub Number := ⟨combine (· - ·) (· - ·)⟩
instance : Mul Number := ⟨combine (· * ·) (· * ·)⟩
instance : Div Number := ⟨divide⟩
instance : NatCast Number := ⟨fun n => .int n⟩
instance : IntCast Number := ⟨.int⟩
instance : OfScientific Number := ⟨fun m s e => .float (OfScientific.ofScientific m s e)⟩

def compareDoubles (x y : Float) : Option Ordering :=
  if x < y then some .lt
  else if y < x then some .gt
  else if x == y then some .eq
  else none

/-- How two numbers compare; a NaN compares with nothing. -/
def compare? : Number → Number → Option Ordering
  | .int m, .int n => some (compare m n)
  | .int m, .float y => (Decimal.Reading.ofFloat y).compareInt m
  | .float x, .int n => ((Decimal.Reading.ofFloat x).compareInt n).map Ordering.swap
  | .float x, .float y => compareDoubles x y
  | .overflow, _ | _, .overflow => none

def isLess (a b : Number) : Bool :=
  a.compare? b == some .lt

def isAtMost (a b : Number) : Bool :=
  a.compare? b == some .lt || a.compare? b == some .eq

instance : LT Number := ⟨fun a b => a.isLess b = true⟩
instance : LE Number := ⟨fun a b => a.isAtMost b = true⟩
instance instDecidableLT : DecidableLT Number := fun a b => inferInstanceAs (Decidable (a.isLess b = true))
instance instDecidableLE : DecidableLE Number := fun a b => inferInstanceAs (Decidable (a.isAtMost b = true))

/-- Rounds a number to an integer by a rule for finite doubles; other numbers that are not whole give
zero. -/
def toIntBy (rule : Decimal.Dyadic → Int) : Number → Int
  | .int n => n
  | .float x =>
    match Decimal.Reading.ofFloat x with
    | .finite d => rule d
    | _ => 0
  | .overflow => 0

def floor : Number → Int := toIntBy Decimal.Dyadic.floor
def ceil : Number → Int := toIntBy Decimal.Dyadic.ceil
def truncate : Number → Int := toIntBy Decimal.Dyadic.truncate

/-- The nearest integer, a half going to the even neighbour. -/
def round : Number → Int := toIntBy Decimal.Dyadic.round

/-- Whether there is a number at all. -/
def hasValue : Number → Bool
  | .int _ | .float _ => true
  | .overflow => false

/-- Whether the number has a place on the number line: no infinity and no NaN. -/
def isFinite : Number → Bool
  | .int _ => true
  | .float x => x.isFinite
  | .overflow => false

def isNaN : Number → Bool
  | .float x => x.isNaN
  | .int _ | .overflow => false

instance : Scalar Number where
  decidableLE := inferInstance
  decidableLT := inferInstance
  floor := floor
  ceil := ceil

instance : SquareRoot Number := ⟨fun x => ((x.double?).map fun r => .float r.sqrt).getD .overflow⟩

/-- Whole numbers have no point, doubles always have one or an exponent. -/
def text : Number → String
  | .int n => toString n
  | .float x => Decimal.shortestText x
  | .overflow => "overflow"

def fixed (places : Nat) (x : Number) : String :=
  Decimal.fixedText places x.toFloat

/-- Six significant digits. -/
def general (x : Number) : String :=
  Decimal.generalText x.toFloat

end Number

end ComplexityMeter
