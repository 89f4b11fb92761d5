import ComplexityMeter.Toml.Moment
import ComplexityMeter.Toml.Table

/-!
# Settings files in the TOML notation

A document is a sequence of lines: entries, headers that open a table, and headers that add a table
to a list. Reading keeps track of which tables may still be opened or extended. All recursion is
bounded by the number of characters, because every step takes at least one.
-/

namespace ComplexityMeter.Toml

/-! ### Values -/

/-- An inline table while it is read: its entries, and the places that are closed to more. -/
structure Inline where
  entries : Entries Datum
  closed : List Place

def Inline.add (t : Inline) (place : Place) (value : Datum) : Option Inline :=
  if t.closed.any fun c => c.isPrefixOf place then none
  else
    (addEntry false place.dropLast (place.getLastD "") value t.entries).map fun entries =>
      ⟨entries, if isCollection value then place :: t.closed else t.closed⟩

mutual

def valueWithin : (steps : Nat) → Reader Datum
  | 0, _ => none
  | steps + 1, cs =>
    match cs with
    | '"' :: _ | '\'' :: _ => (text cs).map fun (s, after) => (.text s, after)
    | 't' :: 'r' :: 'u' :: 'e' :: after => some (.truth true, after)
    | 'f' :: 'a' :: 'l' :: 's' :: 'e' :: after => some (.truth false, after)
    | '[' :: rest =>
      match skipGaps? rest with
      | some (']' :: after) => some (.list [], after)
      | some cs => (itemsWithin steps cs).map fun (items, after) => (.list items, after)
      | none => none
    | '\x7b' :: rest =>
      match skipBlanks rest with
      | '\x7d' :: after => some (.table [], after)
      | cs => (pairsWithin steps ⟨[], []⟩ cs).map fun (entries, after) => (.table entries, after)
    | cs =>
      match readMoment cs with
      | .moment m after => some (.moment m, after)
      | .noDay => none
      | .other => (number cs).map fun (x, after) => (.number x, after)

def itemsWithin : (steps : Nat) → Reader (List Datum)
  | 0, _ => none
  | steps + 1, cs =>
    match valueWithin steps cs with
    | none => none
    | some (item, after) =>
      match skipGaps? after with
      | some (']' :: after) => some ([item], after)
      | some (',' :: rest) =>
        match skipGaps? rest with
        | some (']' :: after) => some ([item], after)
        | some cs => (itemsWithin steps cs).map fun (items, after) => (item :: items, after)
        | none => none
      | _ => none

def pairsWithin : (steps : Nat) → Inline → Reader (Entries Datum)
  | 0, _, _ => none
  | steps + 1, t, cs =>
    match key cs with
    | some (place, '=' :: rest) =>
      match valueWithin steps (skipBlanks rest) with
      | none => none
      | some (value, after) =>
        match t.add place value with
        | none => none
        | some t =>
          match skipBlanks after with
          | '\x7d' :: after => some (t.entries, after)
          | ',' :: rest => pairsWithin steps t (skipBlanks rest)
          | _ => none
    | _ => none

end

def value : Reader Datum := fun cs =>
  valueWithin (cs.length + 1) cs

/-! ### Documents -/

/-- A document while it is read. -/
structure Draft where
  entries : Entries Datum
  /-- The place that the last header names. -/
  header : Place
  /-- Places that no header may open again. -/
  opened : List Place
  /-- Places that dotted keys have made since the last header. -/
  pending : List Place
  /-- Places of collections that were written as one value. -/
  closed : List Place

namespace Draft

def empty : Draft := ⟨[], [], [], [], []⟩

def isClosed (d : Draft) (place : Place) : Bool :=
  d.closed.any fun c => c.isPrefixOf place

/-- What dotted keys have made counts as opened from the next header on. -/
def atHeader (d : Draft) : Draft :=
  { d with opened := d.pending ++ d.opened, pending := [] }

def openHeader (d : Draft) (place : Place) : Option Draft :=
  if d.opened.contains place ∨ d.isClosed place then none
  else
    (openTable place d.entries).map fun entries =>
      { d with entries, header := place, opened := place :: d.opened }

/-- Adds a table to the list that a header names. What was known below that list belonged to its
last table and does not bind the new one. -/
def appendHeader (d : Draft) (place : Place) : Option Draft :=
  if d.isClosed place then none
  else
    let free (places : List Place) : List Place := places.filter fun p => !place.isPrefixOf p
    (appendTable place.dropLast (place.getLastD "") d.entries).map fun entries =>
      { d with
        entries
        header := place
        opened := place :: free d.opened
        closed := free d.closed }

/-- The places that a dotted key passes below the current table, its last part not counted. -/
def passed (d : Draft) (place : Place) : List Place :=
  (List.range (place.length - 1)).map fun i => d.header ++ place.take (i + 1)

def addPair (d : Draft) (place : Place) (value : Datum) : Option Draft :=
  let parent := d.header ++ place.dropLast
  if (d.passed place).any d.opened.contains ∨ d.isClosed parent then none
  else
    (addEntry true parent (place.getLastD "") value d.entries).map fun entries =>
      { d with
        entries
        pending := d.passed place ++ d.pending
        closed := if isCollection value then (d.header ++ place) :: d.closed else d.closed }

end Draft

def pairInto (d : Draft) : Reader Draft := fun cs =>
  match key cs with
  | some (place, '=' :: rest) => do
    let (v, after) ← value (skipBlanks rest)
    let d ← d.addPair place v
    return (d, after)
  | _ => none

def headerInto (d : Draft) : Reader Draft
  | '[' :: rest =>
    match key (skipBlanks rest) with
    | some (place, ']' :: ']' :: after) => (d.atHeader.appendHeader place).map (·, after)
    | _ => none
  | cs =>
    match key (skipBlanks cs) with
    | some (place, ']' :: after) => (d.atHeader.openHeader place).map (·, after)
    | _ => none

/-- Reads what stands on a line before its comment. -/
def statementInto (d : Draft) : Reader Draft
  | [] => some (d, [])
  | c :: rest =>
    if c = '\n' ∨ c = '#' then some (d, c :: rest)
    else if c = '[' then headerInto d rest
    else if startsKey c then pairInto d (c :: rest)
    else none

def lines : (steps : Nat) → Draft → List Char → Option Draft
  | 0, _, _ => none
  | steps + 1, d, cs => do
    let (d, after) ← statementInto d (skipBlanks cs)
    let after ← skipComment? (skipBlanks after)
    match after with
    | [] => return d
    | '\n' :: rest => lines steps d rest
    | _ => none

/-- Line ends of two characters count as one. -/
def joinBreaks : List Char → List Char
  | '\r' :: '\n' :: rest => '\n' :: joinBreaks rest
  | [] => []
  | c :: rest => c :: joinBreaks rest

/-- The table that a document stands for; none when the document is invalid. -/
def read? (document : String) : Option (Entries Datum) :=
  let cs := joinBreaks document.toList
  (lines (cs.length + 1) Draft.empty cs).map Draft.entries

end ComplexityMeter.Toml
