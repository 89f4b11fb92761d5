import ComplexityMeter.Value

/-!
# Writing values in the JSON notation

Values are written either on one line or with every member on a line of its own, indented by two
spaces for every level. Characters outside ASCII are escaped by UTF-16 units.
-/

namespace ComplexityMeter.Json

def units (c : Char) : List Nat :=
  if c.toNat < 0x10000 then [c.toNat]
  else
    let offset := c.toNat - 0x10000
    [0xD800 + offset / 0x400, 0xDC00 + offset % 0x400]

def escape (c : Char) : List Char :=
  if c = '"' ∨ c = '\\' then ['\\', c]
  else if c = '\n' then ['\\', 'n']
  else if c = '\r' then ['\\', 'r']
  else if c = '\t' then ['\\', 't']
  else if c = '\x08' then ['\\', 'b']
  else if c = '\x0c' then ['\\', 'f']
  else if 0x20 ≤ c.toNat ∧ c.toNat < 0x7F then [c]
  else (units c).flatMap fun u => '\\' :: 'u' :: Text.hexadecimal 4 u

def quoted (s : String) : String :=
  String.ofList ('"' :: s.toList.flatMap escape ++ ['"'])

/-- Numbers as they are; the numbers without a place on the line by name. -/
def numberText (x : Number) : String :=
  if x.isFinite then x.text
  else if x.isNaN then "NaN"
  else if x < .int 0 then "-Infinity"
  else "Infinity"

/-- How members are set apart. -/
structure Layout where
  /-- What follows the opening bracket. -/
  opening : Nat → String
  /-- What stands between two members. -/
  between : Nat → String
  /-- What precedes the closing bracket. -/
  closing : Nat → String

namespace Layout

def indent (depth : Nat) : String :=
  "\n" ++ String.ofList (List.replicate (2 * depth) ' ')

/-- Every member on a line of its own. -/
def indented : Layout :=
  ⟨fun depth => indent (depth + 1), fun depth => "," ++ indent (depth + 1), indent⟩

def compact : Layout :=
  ⟨fun _ => "", fun _ => ", ", fun _ => ""⟩

def enclose (layout : Layout) (depth : Nat) (left right : String) (members : List String) :
    String :=
  if members.isEmpty then left ++ right
  else
    left ++ layout.opening depth ++ String.intercalate (layout.between depth) members
      ++ layout.closing depth ++ right

end Layout

mutual

/-- Writes a value. Dates have no notation of their own and are written as texts. -/
def writeAt (layout : Layout) (depth : Nat) : Datum → String
  | .null => "null"
  | .truth b => if b then "true" else "false"
  | .number x => numberText x
  | .text s => quoted s
  | .moment m => quoted m.text
  | .list items => layout.enclose depth "[" "]" (writeItems layout (depth + 1) items)
  | .table entries =>
    layout.enclose depth "\x7b" "\x7d" (writeEntries layout (depth + 1) entries)

def writeItems (layout : Layout) (depth : Nat) : List Datum → List String
  | [] => []
  | item :: rest => writeAt layout depth item :: writeItems layout depth rest

def writeEntries (layout : Layout) (depth : Nat) : List (String × Datum) → List String
  | [] => []
  | (key, value) :: rest =>
    (quoted key ++ ": " ++ writeAt layout depth value) :: writeEntries layout depth rest

end

def write (value : Datum) : String :=
  writeAt Layout.compact 0 value

def writeIndented (value : Datum) : String :=
  writeAt Layout.indented 0 value

end ComplexityMeter.Json
