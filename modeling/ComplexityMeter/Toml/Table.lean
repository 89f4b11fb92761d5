import ComplexityMeter.Value

/-!
# Nested tables

A key of several parts names a place in nested tables. Tables on the way are created when they are
missing; a list of tables stands for its last table where that is allowed.
-/

namespace ComplexityMeter.Toml

/-- The names that lead to a place. -/
abbrev Place := List String

/-- Changes the table at a place. Nothing results when something on the way is no table or when
the change itself fails. -/
def changeAt (throughLists : Bool) (change : Entries Datum → Option (Entries Datum)) :
    Place → Entries Datum → Option (Entries Datum)
  | [], entries => change entries
  | name :: place, entries =>
    match Entries.get? name entries with
    | none => (changeAt throughLists change place []).map fun inner =>
        Entries.set name (.table inner) entries
    | some (.table inner) => (changeAt throughLists change place inner).map fun inner =>
        Entries.set name (.table inner) entries
    | some (.list items) =>
      match throughLists, items.getLast? with
      | true, some (.table inner) =>
        (changeAt throughLists change place inner).map fun inner =>
          Entries.set name (.list (items.dropLast ++ [.table inner])) entries
      | _, _ => none
    | some _ => none

def addEntry (throughLists : Bool) (place : Place) (name : String) (value : Datum)
    (entries : Entries Datum) : Option (Entries Datum) :=
  changeAt throughLists
    (fun table =>
      if (Entries.get? name table).isSome then none else some (Entries.set name value table))
    place entries

def openTable (place : Place) (entries : Entries Datum) : Option (Entries Datum) :=
  changeAt true some place entries

def appendTable (place : Place) (name : String) (entries : Entries Datum) :
    Option (Entries Datum) :=
  changeAt true
    (fun table =>
      match Entries.get? name table with
      | none => some (Entries.set name (.list [.table []]) table)
      | some (.list items) => some (Entries.set name (.list (items ++ [.table []])) table)
      | some _ => none)
    place entries

/-- Collections that were written as one value cannot be extended later. -/
def isCollection : Datum → Bool
  | .list _ | .table _ => true
  | _ => false

end ComplexityMeter.Toml
