import ComplexityMeter.Decimal.Dyadic
import ComplexityMeter.Text.Character

/-!
# Numerals of settings

A numeral may be surrounded by white space, carry a sign, use decimal digits of any script and
hold single underscores between two digits. Whole numerals are digits only; fractional numerals
have a point or an exponent, or name infinity or a NaN.
-/

namespace ComplexityMeter.Text

/-- Splits off digits with single underscores between them; `afterDigit` says whether a digit comes
before. None when an underscore does not stand between two digits. -/
def separatedDigits (afterDigit : Bool) : List Char → Option (List Nat × List Char)
  | [] => some ([], [])
  | c :: rest =>
    match digitValue? c with
    | some d => (separatedDigits true rest).map fun (ds, after) => (d :: ds, after)
    | none =>
      if c = '_' then
        if afterDigit && rest.head?.any fun next => (digitValue? next).isSome then
          separatedDigits false rest
        else none
      else some ([], c :: rest)

def ofDigits (ds : List Nat) : Nat :=
  ds.foldl (fun value d => 10 * value + d) 0

/-- Splits an optional sign from what follows; `true` stands for minus. -/
def splitSign : List Char → Bool × List Char
  | '-' :: rest => (true, rest)
  | '+' :: rest => (false, rest)
  | cs => (false, cs)

/-- More digits than this are refused in a whole numeral. -/
def wholeDigitLimit : Nat := 4300

/-- Why a text is no whole numeral. -/
inductive WholeFault where
  | malformed
  | tooLong (digits : Nat)

/-- Reads a whole numeral. Too many digits are refused before anything is said about what follows
them. -/
def whole? (s : String) : Except WholeFault Int :=
  let (negative, body) := splitSign (trimBlank s.toList)
  match separatedDigits false body with
  | none => .error .malformed
  | some (ds, after) =>
    if wholeDigitLimit < ds.length then .error (.tooLong ds.length)
    else if ds.isEmpty || !after.isEmpty then .error .malformed
    else .ok (if negative then -(ofDigits ds : Int) else ofDigits ds)

/-- Replaces digits of all scripts by ASCII digits and drops underscores between two digits; none
when an underscore stands elsewhere. -/
def plainNumeral (afterDigit : Bool) : List Char → Option (List Char)
  | [] => some []
  | c :: rest =>
    match digitValue? c with
    | some d => (plainNumeral true rest).map (Char.ofNat (48 + d) :: ·)
    | none =>
      if c = '_' then
        match afterDigit, rest.head?.bind digitValue? with
        | true, some _ => plainNumeral false rest
        | _, _ => none
      else (plainNumeral false rest).map (c :: ·)

/-- The double nearest to `digits * 10 ^ exponent`. Exponents far outside the range of doubles are
decided by the position of the leading digit. -/
def nearestDouble (digits : Nat) (exponent : Int) : Float :=
  let lead := exponent + Decimal.digitCount digits
  if digits = 0 ∨ lead < -400 then 0.0
  else if 400 < lead then 1.0 / 0.0
  else OfScientific.ofScientific digits (exponent < 0) exponent.natAbs

/-- Reads `digits`, `digits.digits`, `.digits` or `digits.`, each with an optional exponent. -/
def decimal? (cs : List Char) : Option Float :=
  let wholePart := cs.takeWhile Char.isDigit
  let afterWhole := cs.dropWhile Char.isDigit
  let (places, tail) :=
    match afterWhole with
    | '.' :: rest => (rest.takeWhile Char.isDigit, rest.dropWhile Char.isDigit)
    | _ => ([], afterWhole)
  let digits := wholePart ++ places
  let value (exponent : Int) : Float :=
    nearestDouble (ofDigits (digits.map fun c => c.toNat - 48)) (exponent - places.length)
  if digits.isEmpty then none
  else
    match tail with
    | [] => some (value 0)
    | c :: rest =>
      if c = 'e' ∨ c = 'E' then
        let (negative, power) := splitSign rest
        if power.isEmpty ∨ !power.all Char.isDigit then none
        else
          let size : Int := ofDigits (power.map fun c => c.toNat - 48)
          some (value (if negative then -size else size))
      else none

def fractional? (s : String) : Option Float :=
  match plainNumeral false (trimBlank s.toList) with
  | none => none
  | some cs =>
    let (negative, body) := splitSign cs
    let name := String.ofList (body.map Char.toLower)
    let magnitude :=
      if name = "inf" ∨ name = "infinity" then some (1.0 / 0.0)
      else if name = "nan" then some (0.0 / 0.0)
      else decimal? body
    magnitude.map fun x => if negative then -x else x

end ComplexityMeter.Text
