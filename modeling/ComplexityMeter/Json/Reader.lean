import ComplexityMeter.Value
import ComplexityMeter.Text.Numeral

/-!
# Reading values in the JSON notation

Whole numbers stay whole and numbers with a point or an exponent are doubles, so that a value can
be written again as it was read. Of several members of one name the last one counts, in the place
of the first. All recursion is bounded by the number of characters, because every step takes at
least one.
-/

namespace ComplexityMeter.Json

def isSpace (c : Char) : Bool :=
  c = ' ' || c = '\t' || c = '\n' || c = '\r'

def skipSpace (cs : List Char) : List Char :=
  cs.dropWhile isSpace

def hexDigit? (c : Char) : Option Nat :=
  if c.isDigit then some (c.toNat - '0'.toNat)
  else if 'a' ≤ c ∧ c ≤ 'f' then some (c.toNat - 'a'.toNat + 10)
  else if 'A' ≤ c ∧ c ≤ 'F' then some (c.toNat - 'A'.toNat + 10)
  else none

def unit? (a b c d : Char) : Option Nat := do
  return ((← hexDigit? a) * 16 + (← hexDigit? b)) * 256 + (← hexDigit? c) * 16 + (← hexDigit? d)

def isHighUnit (u : Nat) : Bool :=
  0xD800 ≤ u && u < 0xDC00

def isLowUnit (u : Nat) : Bool :=
  0xDC00 ≤ u && u < 0xE000

def joinUnits (high low : Nat) : Char :=
  Char.ofNat (0x10000 + (high - 0xD800) * 0x400 + (low - 0xDC00))

/-- A unit alone as a character; half a character is replaced. -/
def charOfUnit (u : Nat) : Char :=
  if isHighUnit u || isLowUnit u then '\uFFFD' else Char.ofNat u

def escaped? (c : Char) : Option Char :=
  if c = 'n' then some '\n'
  else if c = 't' then some '\t'
  else if c = 'r' then some '\r'
  else if c = 'b' then some '\x08'
  else if c = 'f' then some '\x0c'
  else if c = '"' ∨ c = '\\' ∨ c = '/' then some c
  else none

/-- Reads a text after its opening quote; the characters read before stand in `before`, the last
one first. -/
def readText (before : List Char) : List Char → Option (String × List Char)
  | [] => none
  | '"' :: rest => some (String.ofList before.reverse, rest)
  | '\\' :: 'u' :: a :: b :: c :: d :: '\\' :: 'u' :: e :: f :: g :: h :: rest =>
    match unit? a b c d, unit? e f g h with
    | some high, some low =>
      if isHighUnit high && isLowUnit low then readText (joinUnits high low :: before) rest
      else readText (charOfUnit high :: before) ('\\' :: 'u' :: e :: f :: g :: h :: rest)
    | _, _ => none
  | '\\' :: 'u' :: a :: b :: c :: d :: rest =>
    match unit? a b c d with
    | some u => readText (charOfUnit u :: before) rest
    | none => none
  | '\\' :: c :: rest =>
    match escaped? c with
    | some x => readText (x :: before) rest
    | none => none
  | c :: rest => readText (c :: before) rest

def isNumberChar (c : Char) : Bool :=
  c.isDigit || c = '-' || c = '+' || c = '.' || c = 'e' || c = 'E'

def number? (numeral : List Char) : Option Number :=
  let (negative, body) := Text.splitSign numeral
  if body.isEmpty then none
  else if body.all Char.isDigit then
    let size : Int := (Text.ofDigits (body.map fun c => c.toNat - 48) : Nat)
    some (.int (if negative then -size else size))
  else
    (Text.decimal? body).map fun x => .float (if negative then -x else x)

def readWord (cs : List Char) : Option (Datum × List Char) :=
  match cs with
  | 't' :: 'r' :: 'u' :: 'e' :: rest => some (.truth true, rest)
  | 'f' :: 'a' :: 'l' :: 's' :: 'e' :: rest => some (.truth false, rest)
  | 'n' :: 'u' :: 'l' :: 'l' :: rest => some (.null, rest)
  | 'N' :: 'a' :: 'N' :: rest => some (.number (.float (0.0 / 0.0)), rest)
  | 'I' :: 'n' :: 'f' :: 'i' :: 'n' :: 'i' :: 't' :: 'y' :: rest =>
    some (.number (.float (1.0 / 0.0)), rest)
  | '-' :: 'I' :: 'n' :: 'f' :: 'i' :: 'n' :: 'i' :: 't' :: 'y' :: rest =>
    some (.number (.float (-1.0 / 0.0)), rest)
  | cs =>
    (number? (cs.takeWhile isNumberChar)).map fun x => (.number x, cs.dropWhile isNumberChar)

mutual

def readValue : (steps : Nat) → List Char → Option (Datum × List Char)
  | 0, _ => none
  | steps + 1, cs =>
    match skipSpace cs with
    | '"' :: rest => (readText [] rest).map fun (s, after) => (.text s, after)
    | '[' :: rest =>
      match skipSpace rest with
      | ']' :: after => some (.list [], after)
      | _ => (readItems steps [] rest).map fun (items, after) => (.list items, after)
    | '\x7b' :: rest =>
      match skipSpace rest with
      | '\x7d' :: after => some (.table [], after)
      | _ => (readMembers steps [] rest).map fun (entries, after) => (.table entries, after)
    | cs => readWord cs

/-- Reads the items of a list; the items read before stand in `before`, the last one first. -/
def readItems : (steps : Nat) → List Datum → List Char → Option (List Datum × List Char)
  | 0, _, _ => none
  | steps + 1, before, cs =>
    match readValue steps cs with
    | none => none
    | some (item, after) =>
      match skipSpace after with
      | ',' :: rest => readItems steps (item :: before) rest
      | ']' :: rest => some ((item :: before).reverse, rest)
      | _ => none

def readMembers : (steps : Nat) → Entries Datum → List Char → Option (Entries Datum × List Char)
  | 0, _, _ => none
  | steps + 1, entries, cs =>
    match skipSpace cs with
    | '"' :: rest =>
      match readText [] rest with
      | none => none
      | some (name, after) =>
        match skipSpace after with
        | ':' :: rest =>
          match readValue steps rest with
          | none => none
          | some (value, after) =>
            match skipSpace after with
            | ',' :: rest => readMembers steps (entries.set name value) rest
            | '\x7d' :: rest => some (entries.set name value, rest)
            | _ => none
        | _ => none
    | _ => none

end

/-- The value of a document; none when the document is no value. -/
def read? (document : String) : Option Datum :=
  let cs := document.toList
  match readValue (cs.length + 1) cs with
  | some (value, after) => if (skipSpace after).isEmpty then some value else none
  | none => none

end ComplexityMeter.Json
