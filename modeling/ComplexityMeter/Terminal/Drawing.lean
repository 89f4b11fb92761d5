import ComplexityMeter.Terminal.Markup
import ComplexityMeter.Terminal.Width

/-!
# Tables and help on a terminal

A table is drawn with lines around its cells, heavy ones around the header. Every cell has a space
on either side, and a column is as wide as its widest cell. The parts of a help screen stand in
panels: frames of the width of the terminal with a title in their upper line.
-/

namespace ComplexityMeter.Terminal

open Command (Justification Column Refusal Screen Table)

def lineWidth : Nat := 400

def spaces (n : Nat) : List Char :=
  List.replicate n ' '

def filled (width : Nat) (cs : List Char) : List Char :=
  cs ++ spaces (width - Terminal.width cs)

/-! ### Lines -/

/-- Bell, backspace, vertical tabulation, form feed and return, which no line holds. -/
def movesCursor (c : Char) : Bool :=
  [0x7, 0x8, 0xb, 0xc, 0xd].contains c.toNat

/-- What a line shows: a tabulation goes to the next multiple of eight columns. -/
def lineAfter (line : List Char) : List Char → List Char
  | [] => line
  | c :: rest =>
    if c = '\t' then lineAfter (line ++ spaces (8 - width line % 8)) rest
    else lineAfter (if movesCursor c then line else line ++ [c]) rest

def inLines (cs : List Char) : String :=
  String.intercalate "\n" (((String.ofList cs).splitOn "\n").map fun line =>
    String.ofList (lineAfter [] line.toList))

/-! ### Tables -/

def aligned (justification : Justification) (width : Nat) (cs : List Char) : List Char :=
  match justification with
  | .left => filled width cs
  | .right => spaces (width - Terminal.width cs) ++ cs

/-- A text in the middle of a width; an odd space goes to the right. -/
def centred (width : Nat) (cs : List Char) : List Char :=
  filled width (spaces ((width - Terminal.width cs) / 2) ++ cs)

/-- A horizontal line under or above columns. -/
def rule (left line between right : String) (widths : List Nat) : String :=
  left ++ String.intercalate between (widths.map fun w => String.join (List.replicate (w + 2) line))
    ++ right

def rowLine (bar : String) (columns : List Column) (widths : List Nat)
    (cells : List (List Char)) : String :=
  bar ++ String.intercalate bar (((columns.zip widths).zip cells).map fun ((column, w), cell) =>
    " " ++ String.ofList (aligned column.justification w cell) ++ " ") ++ bar

def drawnTable (t : Table) (rows : List (List (List Char))) : String :=
  let widths := t.columns.zipIdx.map fun (column, i) =>
    (rows.filterMap fun row => row[i]?.map width).foldl max
      (max column.leastWidth (width column.header.toList))
  let total := (widths.map (· + 3)).foldl (· + ·) 1
  let title := t.title.toList.map fun title => String.ofList (centred total title.toList)
  String.intercalate "\n" (title
    ++ rule "┏" "━" "┳" "┓" widths
    :: rowLine "┃" t.columns widths (t.columns.map fun column => column.header.toList)
    :: rule "┡" "━" "╇" "┩" widths
    :: rows.map (rowLine "│" t.columns widths)
    ++ [rule "└" "─" "┴" "┘" widths])

def table (t : Table) : Except Refusal String := do
  let rows ← t.rows.mapM fun row => row.mapM fun cell => (shown cell).map (lineAfter [])
  return drawnTable t rows

/-! ### Help -/

structure Panel where
  title : String
  rows : List (List String)

namespace Panel

/-- The cells of a row in their columns, two spaces apart. -/
def rowText (p : Panel) (row : List String) : String :=
  String.intercalate "  " (row.zipIdx.map fun (cell, i) =>
    let widest := (p.rows.map fun row => width (row.getD i "").toList).foldl max 0
    String.ofList (filled widest cell.toList))

def lines (p : Panel) : List String :=
  let line (n : Nat) : String := String.join (List.replicate n "─")
  let top := "╭─ " ++ p.title ++ " "
  [top ++ line (lineWidth - 1 - width top.toList) ++ "╮"]
    ++ p.rows.map (fun row =>
      String.ofList (filled (lineWidth - 1) ("│ " ++ p.rowText row).toList) ++ "│")
    ++ ["╰" ++ line (lineWidth - 2) ++ "╯"]

end Panel

def panels (s : Screen) : List Panel :=
  [ ⟨"Arguments", s.arguments.map fun a => ["*", "", a.name, "", "", a.value,
      a.text ++ " [required]"]⟩,
    ⟨"Options", s.options.map fun o => [o.long, o.short, "", "", o.value, o.text]⟩,
    ⟨"Commands", s.commands.map fun (name, text) => [name, text]⟩ ]

def screen (s : Screen) : String :=
  let text := ["", "Usage: complexity-insight " ++ s.usage, ""] ++ s.about ++ [""]
  String.intercalate "\n"
    (text.map (fun line => String.ofList (filled lineWidth (" " ++ line).toList))
      ++ ((panels s).filter fun p => !p.rows.isEmpty).flatMap Panel.lines ++ [""])

end ComplexityMeter.Terminal
