import ComplexityMeter.Command.Help

/-!
# Consoles

Commands show lines, tables and help on a console, which is no part of the program. A line may be
marked up: a name in brackets sets a style, and a slash in front of the name ends it. How things
look is left to the console, and it may refuse a text whose marks make no sense.
-/

namespace ComplexityMeter.Command

inductive Justification where
  | left
  | right
  deriving DecidableEq, Repr

structure Column where
  header : String
  justification : Justification
  /-- The least width, without the spaces around a cell. -/
  leastWidth : Nat
  deriving DecidableEq, Repr

/-- A table with marked-up cells. -/
structure Table where
  title : Option String
  columns : List Column
  rows : List (List String)
  deriving DecidableEq, Repr

/-- Why a console does not show something. -/
structure Refusal where
  kind : String
  deriving DecidableEq, Repr

/-- What a console shows of the things that it is given. -/
structure Console where
  /-- A marked-up line, which may be broken. -/
  marked : String → Except Refusal String
  /-- A marked-up line that is never broken. -/
  unbroken : String → Except Refusal String
  /-- A text without marks. -/
  plain : String → String
  table : Table → Except Refusal String
  screen : Screen → String

end ComplexityMeter.Command
