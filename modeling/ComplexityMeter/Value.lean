import ComplexityMeter.Moment
import ComplexityMeter.Number
import ComplexityMeter.Text.Numeral
import ComplexityMeter.Text.Quoted

/-!
# Open values

Settings files, reports and the facts attached to a score hold values of no fixed shape. A table
keeps its entries in the order in which they were given, and a key occurs once in it.
-/

namespace ComplexityMeter

/-- A value over a type of numbers. -/
inductive Value (α : Type) where
  | null
  | truth (value : Bool)
  | number (value : α)
  | text (value : String)
  | moment (value : Moment)
  | list (items : List (Value α))
  | table (entries : List (String × Value α))
  deriving Inhabited

/-- A value of a file or of a message. -/
abbrev Datum := Value Number

/-- Entries by name, in the order in which the names were first given. -/
abbrev Entries (β : Type) := List (String × β)

namespace Entries

variable {β : Type}

/-- Sets an entry: a new name goes to the end, a known one keeps its place. -/
def set (name : String) (value : β) : Entries β → Entries β
  | [] => [(name, value)]
  | (key, old) :: rest =>
    if key = name then (key, value) :: rest else (key, old) :: set name value rest

/-- Sets all entries of the second collection, from the first to the last. -/
def update (entries later : Entries β) : Entries β :=
  later.foldl (fun known entry => set entry.1 entry.2 known) entries

def get? (name : String) (entries : Entries β) : Option β :=
  entries.lookup name

def erase (name : String) (entries : Entries β) : Entries β :=
  entries.filter fun entry => entry.1 != name

theorem get?_set (name other : String) (value : β) (entries : Entries β) :
    (entries.set name value).get? other
      = if other = name then some value else entries.get? other := by
  induction entries with
  | nil =>
    by_cases h : other = name
    · simp [set, get?, h]
    · simp [set, get?, List.lookup_cons, h, beq_eq_false_iff_ne.2 h]
  | cons entry rest ih =>
    obtain ⟨key, old⟩ := entry
    simp only [get?] at ih ⊢
    by_cases hk : key = name
    · subst hk
      by_cases h : other = key
      · simp [set, h]
      · simp [set, List.lookup_cons, h, beq_eq_false_iff_ne.2 h]
    · simp only [set, if_neg hk, List.lookup_cons]
      by_cases h : other = key
      · subst h
        simp [hk]
      · simp [beq_eq_false_iff_ne.2 h, ih]

end Entries

namespace Value

/-- Whether a value counts as true: all but the null value, false, zero and what is empty. -/
def isTruthy {α : Type} [Scalar α] : Value α → Bool
  | .null => false
  | .truth b => b
  | .number x => !Scalar.isZero x
  | .text s => !s.isEmpty
  | .moment _ => true
  | .list items => !items.isEmpty
  | .table entries => !entries.isEmpty

/-- The number that a value counts as: truth values count as one and zero. -/
def number? : Datum → Option Number
  | .truth b => some (.int (if b then 1 else 0))
  | .number x => some x
  | _ => none

/-- The name of the kind of a value, as messages about misplaced values give it. -/
def kindName : Datum → String
  | .null => "NoneType"
  | .truth _ => "bool"
  | .number (.int _) => "int"
  | .number (.float _) | .number .overflow => "float"
  | .text _ => "str"
  | .moment m => m.kindName
  | .list _ => "list"
  | .table _ => "dict"

mutual

/-- A value as it stands inside another one: texts are quoted. -/
def expression : Datum → String
  | .null => "None"
  | .truth b => if b then "True" else "False"
  | .number x => x.text
  | .text s => Text.quote s
  | .moment m => m.expression
  | .list items => "[" ++ String.intercalate ", " (itemExpressions items) ++ "]"
  | .table entries =>
    "\x7b" ++ String.intercalate ", " (entryExpressions entries) ++ "\x7d"

def itemExpressions : List Datum → List String
  | [] => []
  | item :: rest => expression item :: itemExpressions rest

def entryExpressions : List (String × Datum) → List String
  | [] => []
  | (key, value) :: rest => (Text.quote key ++ ": " ++ expression value) :: entryExpressions rest

end

/-- A value in a message: a text stands for itself. -/
def shown : Datum → String
  | .text s => s
  | .moment m => m.text
  | value => value.expression

mutual

/-- Whether a message can show a value. A whole number that has more digits than a numeral may have
is not written either. -/
def isWritable : Datum → Bool
  | .number (.int n) => n.natAbs < Nat.pow 10 Text.wholeDigitLimit
  | .list items => areWritable items
  | .table entries => entriesWritable entries
  | .number (.float _) | .number .overflow | .null | .truth _ | .text _ | .moment _ => true

def areWritable : List Datum → Bool
  | [] => true
  | item :: rest => isWritable item && areWritable rest

def entriesWritable : List (String × Datum) → Bool
  | [] => true
  | (_, value) :: rest => isWritable value && entriesWritable rest

end

end Value

end ComplexityMeter
