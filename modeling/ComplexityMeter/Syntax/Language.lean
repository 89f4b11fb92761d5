import ComplexityMeter.Path

/-!
# Source languages

The languages that sources are written in, their names in settings, and the choice of a language
by the ending of a file name.
-/

namespace ComplexityMeter.Syntax

inductive Language where
  | typescript
  | tsx
  deriving DecidableEq, Repr, Inhabited

namespace Language

/-- All languages, in the order in which messages list them. -/
def all : List Language := [.typescript, .tsx]

def name : Language → String
  | .typescript => "typescript"
  | .tsx => "tsx"

def ofName? (name : String) : Option Language :=
  all.find? fun language => language.name = name

def names : List String :=
  all.map name

theorem ofName?_name (language : Language) : ofName? language.name = some language := by
  cases language <;> decide

/-- Files that end in `.tsx` or `.jsx`, in letters of either case, may hold markup. -/
def ofPath (path : String) : Language :=
  let ending := (Path.extension path).map Char.toLower
  if ending = ".tsx".toList ∨ ending = ".jsx".toList then .tsx else .typescript

end Language

end ComplexityMeter.Syntax
