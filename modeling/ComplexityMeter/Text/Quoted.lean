import ComplexityMeter.Text.Printable

/-!
# Quoted texts

A quoted text stands between single quotes, or between double quotes when it holds a single quote
and no double one. The quote itself and the backslash are escaped by a backslash, line feed,
return and tab by their letters, and every other unprintable character by its code in the
shortest of the forms with two, four or eight hexadecimal digits.
-/

namespace ComplexityMeter.Text

/-- A code in lower-case hexadecimal digits, padded to a width. -/
def hexadecimal (places code : Nat) : List Char :=
  let digits := Nat.toDigits 16 code
  List.replicate (places - digits.length) '0' ++ digits

def delimiter (cs : List Char) : Char :=
  if cs.contains '\'' && !cs.contains '"' then '"' else '\''

/-- One character as it stands between two quotes. -/
def escape (quote c : Char) : List Char :=
  if c = quote ∨ c = '\\' then ['\\', c]
  else if c = '\n' then ['\\', 'n']
  else if c = '\r' then ['\\', 'r']
  else if c = '\t' then ['\\', 't']
  else if isPrintable c then [c]
  else if c.toNat < 0x100 then '\\' :: 'x' :: hexadecimal 2 c.toNat
  else if c.toNat < 0x10000 then '\\' :: 'u' :: hexadecimal 4 c.toNat
  else '\\' :: 'U' :: hexadecimal 8 c.toNat

def quote (s : String) : String :=
  let mark := delimiter s.toList
  String.ofList (mark :: s.toList.flatMap (escape mark) ++ [mark])

end ComplexityMeter.Text
