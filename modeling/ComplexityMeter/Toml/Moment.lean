import ComplexityMeter.Moment
import ComplexityMeter.Toml.Lexeme

/-!
# Dates and times in settings files

Dates and times have fields of fixed width. A text that looks like a date but names no day of the
calendar makes the document invalid, while any other text is left to be read as something else.
-/

namespace ComplexityMeter.Toml

def fixedDigits (count : Nat) : Reader Nat := fun cs =>
  let digits := cs.take count
  if digits.length = count ∧ digits.all Char.isDigit then
    some (ofDigitChars 10 digits, cs.drop count)
  else none

/-- Reads a two-digit number within bounds. -/
def boundedPair (low high : Nat) : Reader Nat := fun cs =>
  match fixedDigits 2 cs with
  | some (n, after) => if low ≤ n ∧ n ≤ high then some (n, after) else none
  | none => none

def expectChar (c : Char) (cs : List Char) : Option (List Char) :=
  match cs with
  | d :: rest => if d = c then some rest else none
  | [] => none

def dateText : Reader Date := fun cs => do
  let (year, cs) ← fixedDigits 4 cs
  let cs ← expectChar '-' cs
  let (month, cs) ← boundedPair 1 12 cs
  let cs ← expectChar '-' cs
  let (day, cs) ← boundedPair 1 31 cs
  return (⟨year, month, day⟩, cs)

/-- The first six decimal places of a second as a number of microseconds. -/
def microseconds (digits : List Char) : Nat :=
  let kept := digits.take 6
  ofDigitChars 10 (kept ++ List.replicate (6 - kept.length) '0')

def timeText : Reader Time := fun cs => do
  let (hour, cs) ← boundedPair 0 23 cs
  let cs ← expectChar ':' cs
  let (minute, cs) ← boundedPair 0 59 cs
  let cs ← expectChar ':' cs
  let (second, cs) ← boundedPair 0 59 cs
  match cs with
  | '.' :: rest =>
    let places := rest.takeWhile Char.isDigit
    if places.isEmpty then return (⟨hour, minute, second, 0⟩, cs)
    else return (⟨hour, minute, second, microseconds places⟩, rest.dropWhile Char.isDigit)
  | _ => return (⟨hour, minute, second, 0⟩, cs)

def offsetText : Reader Int := fun cs =>
  match cs with
  | 'Z' :: rest | 'z' :: rest => some (0, rest)
  | sign :: rest =>
    if sign = '+' ∨ sign = '-' then do
      let (hour, cs) ← boundedPair 0 23 rest
      let cs ← expectChar ':' cs
      let (minute, cs) ← boundedPair 0 59 cs
      let size : Int := hour * 60 + minute
      return (if sign = '-' then -size else size, cs)
    else none
  | [] => none

def timeAfterDate : Reader Time := fun cs =>
  match cs with
  | mark :: rest => if mark = 'T' ∨ mark = 't' ∨ mark = ' ' then timeText rest else none
  | [] => none

def isLeapYear (year : Nat) : Bool :=
  year % 4 = 0 && (year % 100 ≠ 0 || year % 400 = 0)

def daysInMonth (year month : Nat) : Nat :=
  if month = 2 then (if isLeapYear year then 29 else 28)
  else if month = 4 ∨ month = 6 ∨ month = 9 ∨ month = 11 then 30
  else 31

/-- A day of the calendar; there is no year zero. -/
def isDay (d : Date) : Bool :=
  1 ≤ d.year && d.day ≤ daysInMonth d.year d.month

/-- What the start of a text is as a date or time. -/
inductive MomentReading where
  | moment (moment : Moment) (rest : List Char)
  | noDay
  | other

def readMoment (cs : List Char) : MomentReading :=
  match dateText cs with
  | some (date, afterDate) =>
    if !isDay date then .noDay
    else
      match timeAfterDate afterDate with
      | none => .moment (.date date) afterDate
      | some (time, afterTime) =>
        match offsetText afterTime with
        | none => .moment (.dateTime date time none) afterTime
        | some (offset, rest) => .moment (.dateTime date time (some offset)) rest
  | none =>
    match timeText cs with
    | some (time, rest) => .moment (.time time) rest
    | none => .other

end ComplexityMeter.Toml
