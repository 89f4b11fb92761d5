import ComplexityMeter.Failure
import ComplexityMeter.Path
import ComplexityMeter.Score.File
import ComplexityMeter.Settings

/-!
# Imports of a file

The sources that a file imports from, the files that its relative imports name, and the score of a
file as part of a module graph: its own score with a pressure for every imported symbol, all of it
multiplied by a factor that grows with the reassignable variables of the file.
-/

namespace ComplexityMeter.Graph

open Syntax (Node Tree)
open Score (Result)

variable {α : Type} [Scalar α]

/-- The marks that may enclose a text: two quotes and the backquote. -/
def quotationMarks : List Char := ['\'', '"', Char.ofNat 96]

def unquoted (cs : List Char) : List Char :=
  match cs with
  | [] => []
  | mark :: rest =>
    if !rest.isEmpty && quotationMarks.contains mark && rest.getLast? = some mark then
      rest.dropLast
    else cs

/-- The source text of a statement that imports, or exports from, another file. -/
def source? (statement : Node) : Option String :=
  if statement.kind = "import_statement" ∨ statement.kind = "export_statement" then
    (statement.child? "source").map fun s => String.ofList (unquoted s.text.toList)
  else none

/-- The statements of a file with a source, and their sources. -/
def sources (root : Node) : List (String × Node) :=
  root.children.filterMap fun statement => (source? statement).map fun s => (s, statement)

/-- Whether a source names a file rather than a package. -/
def isRelative (source : String) : Bool :=
  source.toList.head? = some '.'

/-- The files that the relative sources of a file name, in source order and each once. -/
def dependencies (defaultFile path : String) (root : Node) : List String :=
  (((sources root).map Prod.fst).filter isRelative |>.map fun source =>
    Path.resolve path source defaultFile).eraseDups

/-- Refuses a file with an import of the directory that all paths start from when the default file
cannot stand alone. -/
def checkImports (settings : Settings α) (t : Tree) : Except Failure Unit :=
  match settings.notAlone with
  | none => .ok ()
  | some cause =>
    if ((sources t.root).map Prod.fst).any fun s => isRelative s && Path.namesRoot t.filename s then
      .error (.misuse cause)
    else .ok ()

def clauseSymbols (part : Node) : Nat :=
  if part.kind = "identifier" ∨ part.kind = "namespace_import" then 1
  else if part.kind = "named_imports" then
    part.children.countP fun c => c.kind = "import_specifier"
  else 0

def importedSymbols (statement : Node) : Nat :=
  match statement.childOfKind? ["import_clause"] with
  | none => 0
  | some clause => (clause.children.map clauseSymbols).foldl (· + ·) 0

/-- Imported names, by where they come from. -/
structure ImportCounts where
  library : Nat
  localFiles : Nat
  deriving DecidableEq, Repr

def importCounts (root : Node) : ImportCounts :=
  let imports := (sources root).filter fun s => s.2.kind = "import_statement"
  let symbols (p : String → Bool) : Nat :=
    ((imports.filter fun s => p s.1).map fun s => importedSymbols s.2).foldl (· + ·) 0
  ⟨symbols fun s => !isRelative s, symbols isRelative⟩

/-- The reassignable declarators anywhere in a file. -/
def letCount (root : Node) : Nat :=
  (root.walk.map fun n =>
    if n.kind = "lexical_declaration" ∧ n.token? "kind" = some "let" then
      (Score.declarators n).length
    else 0).foldl (· + ·) 0

def importPressure (settings : Settings α) (counts : ImportCounts) : α :=
  settings.libraryWeight * (counts.library : α) + settings.localWeight * (counts.localFiles : α)

def letFactor (settings : Settings α) (count : Nat) : α :=
  ((1 : Nat) : α) + settings.mutabilityFactor * (count : α)

def moduleFileResult (settings : Settings α) (t : Tree) : Result α :=
  let counts := importCounts t.root
  let result : Result α := Score.scoreFile settings.ceiling t
  let pressure := importPressure settings counts
  let lets := letCount t.root
  let factor := letFactor settings lets
  let importFacts : Entries (Value α) :=
    [Score.countFact "library_imports" counts.library,
      Score.countFact "local_imports" counts.localFiles, ("import_complexity", .number pressure)]
  if lets = 0 then
    { result with score := result.score + pressure, facts := result.facts ++ importFacts }
  else
    { result with
      score := (result.score + pressure) * factor
      facts := result.facts ++ importFacts
        ++ [Score.countFact "let_declaration_count" lets, ("let_multiplier", .number factor)] }

end ComplexityMeter.Graph
