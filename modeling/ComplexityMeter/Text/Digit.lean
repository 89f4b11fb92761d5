/-!
# Digits

Digits of numbers in a base up to sixteen, and runs of them in which underscores may stand.
-/

namespace ComplexityMeter.Text

def hexValue? (c : Char) : Option Nat :=
  if c.isDigit then some (c.toNat - '0'.toNat)
  else if 'a' ≤ c ∧ c ≤ 'f' then some (c.toNat - 'a'.toNat + 10)
  else if 'A' ≤ c ∧ c ≤ 'F' then some (c.toNat - 'A'.toNat + 10)
  else none

/-- Splits off a run of digits in which single underscores may stand between two digits. The
underscores are dropped. -/
def digitRun (isDigit : Char → Bool) : List Char → List Char × List Char
  | [] => ([], [])
  | c :: rest =>
    if isDigit c then
      let (digits, after) := digitRun isDigit rest
      (c :: digits, after)
    else if c = '_' ∧ (rest.head?.map isDigit).getD false then digitRun isDigit rest
    else ([], c :: rest)

/-- A run that begins with a digit. -/
def digits? (isDigit : Char → Bool) (cs : List Char) : Option (List Char × List Char) :=
  if (cs.head?.map isDigit).getD false then some (digitRun isDigit cs) else none

def isDigitBelow (base : Nat) (c : Char) : Bool :=
  ((hexValue? c).map fun d => decide (d < base)).getD false

end ComplexityMeter.Text
