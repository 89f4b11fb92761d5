import ComplexityMeter.Number
import ComplexityMeter.Text.Digit
import ComplexityMeter.Text.Numeral

/-!
# Lexemes of settings files

The smallest parts of a document in the TOML notation: blanks and comments, texts in their four
forms, keys and numbers. A reader takes the characters that are left and gives back what it has
read with the characters after it, or nothing when the text is no such part.
-/

namespace ComplexityMeter.Toml

open Text (hexValue? digits? isDigitBelow)

/-- What is read from the start of a text, with the rest of the text. -/
abbrev Reader (β : Type) := List Char → Option (β × List Char)

def isBlank (c : Char) : Bool :=
  c = ' ' || c = '\t'

/-- Control characters may not stand in a document, apart from tabs and ends of lines. -/
def isControl (c : Char) : Bool :=
  (c.toNat < 0x20 && c ≠ '\t') || c.toNat = 0x7F

def skipBlanks (cs : List Char) : List Char :=
  cs.dropWhile isBlank

def skipComment? (cs : List Char) : Option (List Char) :=
  match cs with
  | '#' :: rest =>
    if (rest.takeWhile (· ≠ '\n')).any isControl then none else some (rest.dropWhile (· ≠ '\n'))
  | _ => some cs

/-- Skips blanks, ends of lines and comments; `inComment` says that a comment has begun. -/
def skipGapsFrom (inComment : Bool) : List Char → Option (List Char)
  | [] => some []
  | c :: rest =>
    if c = '\n' then skipGapsFrom false rest
    else if inComment then (if isControl c then none else skipGapsFrom true rest)
    else if isBlank c then skipGapsFrom false rest
    else if c = '#' then skipGapsFrom true rest
    else some (c :: rest)

def skipGaps? (cs : List Char) : Option (List Char) :=
  skipGapsFrom false cs

/-! ### Texts -/

def literalText : Reader String := fun cs =>
  let body := cs.takeWhile (· ≠ '\'')
  match cs.dropWhile (· ≠ '\'') with
  | _ :: rest => if body.any (fun c => isControl c) then none else some (String.ofList body, rest)
  | [] => none

/-- Splits a text before and after the first three apostrophes in a row. -/
def untilTriple : List Char → Option (List Char × List Char)
  | '\'' :: '\'' :: '\'' :: rest => some ([], rest)
  | [] => none
  | c :: rest => (untilTriple rest).map fun (body, after) => (c :: body, after)

/-- A text of several lines may end in up to two marks that belong to it. -/
def withFinalMarks (mark : Char) (body : List Char) (cs : List Char) : String × List Char :=
  let extra := (cs.take 2).takeWhile (· = mark)
  (String.ofList (body ++ extra), cs.drop extra.length)

/-- The end of a line right after the opening marks is not part of the text. -/
def dropFirstBreak : List Char → List Char
  | '\n' :: rest => rest
  | cs => cs

def literalLines : Reader String := fun cs =>
  match untilTriple (dropFirstBreak cs) with
  | none => none
  | some (body, after) =>
    if body.any fun c => isControl c && c ≠ '\n' then none
    else some (withFinalMarks '\'' body after)

/-- The character with a code in hexadecimal digits; surrogates are no characters. -/
def charOfCode? (digits : List Char) : Option Char :=
  match digits.mapM hexValue? with
  | none => none
  | some values =>
    let code := values.foldl (fun code d => 16 * code + d) 0
    if code.isValidChar then some (Char.ofNat code) else none

/-- The character that a letter stands for after a backslash. -/
def escaped? (c : Char) : Option Char :=
  if c = 'b' then some '\x08'
  else if c = 't' then some '\t'
  else if c = 'n' then some '\n'
  else if c = 'f' then some '\x0c'
  else if c = 'r' then some '\r'
  else if c = '"' ∨ c = '\\' then some c
  else none

/-- Where the reading of a text with escapes stands. -/
inductive Phase where
  | inText
  /-- After a backslash and blanks: the line must end. -/
  | beforeBreak
  /-- After a backslash at the end of a line: blanks and ends of lines are dropped. -/
  | afterBreak
  deriving DecidableEq

/-- Reads a text with escapes up to its closing marks. -/
def escapedText (severalLines : Bool) (phase : Phase) : Reader (List Char)
  | [] => none
  | c :: rest =>
    if phase = .beforeBreak then
      if isBlank c then escapedText severalLines .beforeBreak rest
      else if c = '\n' then escapedText severalLines .afterBreak rest
      else none
    else if phase = .afterBreak ∧ (isBlank c ∨ c = '\n') then
      escapedText severalLines .afterBreak rest
    else if c = '"' then
      if !severalLines then some ([], rest)
      else
        match rest with
        | '"' :: '"' :: after => some ([], after)
        | _ => (escapedText severalLines .inText rest).map fun (body, after) => (c :: body, after)
    else if c = '\\' then
      match rest with
      | 'u' :: a :: b :: d :: e :: after =>
        match charOfCode? [a, b, d, e] with
        | none => none
        | some x =>
          (escapedText severalLines .inText after).map fun (body, after) => (x :: body, after)
      | 'U' :: a :: b :: d :: e :: f :: g :: h :: i :: after =>
        match charOfCode? [a, b, d, e, f, g, h, i] with
        | none => none
        | some x =>
          (escapedText severalLines .inText after).map fun (body, after) => (x :: body, after)
      | x :: after =>
        if severalLines && isBlank x then escapedText severalLines .beforeBreak after
        else if severalLines && x = '\n' then escapedText severalLines .afterBreak after
        else
          match escaped? x with
          | none => none
          | some y =>
            (escapedText severalLines .inText after).map fun (body, after) => (y :: body, after)
      | [] => none
    else if isControl c && !(severalLines && c = '\n') then none
    else (escapedText severalLines .inText rest).map fun (body, after) => (c :: body, after)

def basicText : Reader String := fun cs =>
  (escapedText false .inText cs).map fun (body, after) => (String.ofList body, after)

def basicLines : Reader String := fun cs =>
  (escapedText true .inText (dropFirstBreak cs)).map fun (body, after) =>
    withFinalMarks '"' body after

def text : Reader String
  | '"' :: '"' :: '"' :: rest => basicLines rest
  | '"' :: rest => basicText rest
  | '\'' :: '\'' :: '\'' :: rest => literalLines rest
  | '\'' :: rest => literalText rest
  | _ => none

/-! ### Keys -/

def isKeyChar (c : Char) : Bool :=
  c.isAlphanum || c = '-' || c = '_'

def startsKey (c : Char) : Bool :=
  isKeyChar c || c = '"' || c = '\''

def keyPart : Reader String
  | '"' :: rest => basicText rest
  | '\'' :: rest => literalText rest
  | cs =>
    let word := cs.takeWhile isKeyChar
    if word.isEmpty then none else some (String.ofList word, cs.dropWhile isKeyChar)

/-- Reads the parts of a key; there are at most so many as `parts` says. -/
def keyParts : (parts : Nat) → Reader (List String)
  | 0, _ => none
  | parts + 1, cs =>
    match keyPart cs with
    | none => none
    | some (part, after) =>
      match skipBlanks after with
      | '.' :: rest =>
        (keyParts parts (skipBlanks rest)).map fun (others, after) => (part :: others, after)
      | after => some ([part], after)

def key : Reader (List String) := fun cs =>
  keyParts (cs.length + 1) cs

/-! ### Numbers -/

def ofDigitChars (base : Nat) (digits : List Char) : Nat :=
  digits.foldl (fun value c => base * value + (hexValue? c).getD 0) 0

/-- Reads a whole number in another base after its two opening characters. -/
def numberInBase (base : Nat) : Reader Number := fun cs =>
  (digits? (isDigitBelow base) cs).map fun (digits, after) =>
    (.int (ofDigitChars base digits : Nat), after)

/-- The digits before the point: a zero alone or a run without a leading zero. -/
def leadingDigits : List Char → Option (List Char × List Char)
  | '0' :: rest => some (['0'], rest)
  | cs => digits? (isDigitBelow 10) cs

/-- The digits after a point, if a point and a digit follow. -/
def placesOf (cs : List Char) : Option (List Char × List Char) :=
  match cs with
  | '.' :: rest => digits? (isDigitBelow 10) rest
  | _ => none

/-- The exponent, if one follows. -/
def exponentOf (cs : List Char) : Option (Int × List Char) :=
  match cs with
  | c :: rest =>
    if c = 'e' ∨ c = 'E' then
      let (negative, body) := Text.splitSign rest
      (digits? (isDigitBelow 10) body).map fun (digits, after) =>
        let size : Int := (ofDigitChars 10 digits : Nat)
        (if negative then -size else size, after)
    else none
  | [] => none

/-- Reads a number in decimal notation. Whole numbers with too many digits are refused. -/
def decimalNumber : Reader Number := fun cs =>
  let (negative, body) := Text.splitSign cs
  match leadingDigits body with
  | none => none
  | some (whole, afterWhole) =>
    let places := placesOf afterWhole
    let afterPlaces := (places.map Prod.snd).getD afterWhole
    let exponent := exponentOf afterPlaces
    let after := (exponent.map Prod.snd).getD afterPlaces
    if places.isNone && exponent.isNone then
      let size : Int := (ofDigitChars 10 whole : Nat)
      if Text.wholeDigitLimit < whole.length then none
      else some (.int (if negative then -size else size), after)
    else
      let fraction := (places.map Prod.fst).getD []
      let shift := (exponent.map Prod.fst).getD 0 - (fraction.length : Int)
      let size := Text.nearestDouble (ofDigitChars 10 (whole ++ fraction)) shift
      some (.float (if negative then -size else size), after)

def namedNumber : Reader Number := fun cs =>
  let (negative, body) := Text.splitSign cs
  let value (x : Float) : Number := .float (if negative then -x else x)
  match body with
  | 'i' :: 'n' :: 'f' :: rest => some (value (1.0 / 0.0), rest)
  | 'n' :: 'a' :: 'n' :: rest => some (value (0.0 / 0.0), rest)
  | _ => none

def number : Reader Number := fun cs =>
  let based :=
    match cs with
    | '0' :: 'x' :: rest => numberInBase 16 rest
    | '0' :: 'o' :: rest => numberInBase 8 rest
    | '0' :: 'b' :: rest => numberInBase 2 rest
    | _ => none
  (based.or (decimalNumber cs)).or (namedNumber cs)

end ComplexityMeter.Toml
