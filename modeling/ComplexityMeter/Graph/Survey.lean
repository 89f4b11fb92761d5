import ComplexityMeter.Event
import ComplexityMeter.Graph.Imports
import ComplexityMeter.Graph.Total
import ComplexityMeter.Score.Summary

/-!
# Surveys of files

A survey takes a list of files as one module graph. A listed file takes part when it has content
and no file before it has the same normal path. Imports of files that take no part are dropped, the
rest are ordered, and every file gets its total.
-/

namespace ComplexityMeter.Graph

open Syntax (Language Parser Tree)
open Score (Result)

/-- A file that takes part in a survey, under its normal path. -/
structure Source where
  path : String
  content : String
  deriving DecidableEq, Repr

/-- What is done with a listed file. -/
inductive Step where
  | skip (path : String)
  | take (source : Source)
  deriving DecidableEq, Repr

/-- The content of a listed file, unless it is empty. -/
def content? (contents : Entries String) (path : String) : Option String :=
  (contents.get? path).filter fun text => text ≠ ""

/-- Goes through the listed paths. The normal paths in `seen` have been taken before. -/
def stepsAfter (contents : Entries String) (seen : List String) : List String → List Step
  | [] => []
  | path :: rest =>
    match content? contents path with
    | none => .skip path :: stepsAfter contents seen rest
    | some text =>
      let normal := Path.normalize path
      if normal ∈ seen then stepsAfter contents seen rest
      else .take ⟨normal, text⟩ :: stepsAfter contents (normal :: seen) rest

def steps (contents : Entries String) (paths : List String) : List Step :=
  stepsAfter contents [] paths

/-- The files that take part, in the order of the list. -/
def selected (contents : Entries String) (paths : List String) : List Source :=
  (steps contents paths).filterMap fun step =>
    match step with
    | .take source => some source
    | .skip _ => none

/-- A file of a survey as parsed. The language is that of its normal path. -/
def parseSource (parser : Parser) (s : Source) : Except Failure Tree :=
  Tree.parse parser (Language.ofPath s.path) s.path s.content

variable {α : Type} [Scalar α] [SquareRoot α]

/-- The module of a parsed file, with all files that it imports. -/
def moduleOf (settings : Settings α) (s : Source) (t : Tree) : Module α :=
  ⟨s.path, dependencies settings.defaultFile s.path t.root, some (moduleFileResult settings t)⟩

/-- The modules of files; the first file with a syntax error decides the failure. -/
def readModules (parser : Parser) (settings : Settings α) (sources : List Source) :
    Except Failure (List (Module α)) :=
  sources.mapM fun s => (parseSource parser s).map (moduleOf settings s)

def closed (modules : List (Module α)) : List (Module α) :=
  let known := modules.map Module.path
  modules.map fun m => { m with dependencies := m.dependencies.filter known.contains }

/-- A module after its total has been computed. -/
structure Row (α : Type) where
  path : String
  fileScore : α
  total : α
  dependencies : List String
  details : Option (Result α)

/-- The rows of modules, each above the modules it imports. -/
def rows (settings : Settings α) (modules : List (Module α)) : List (Row α) :=
  let order := ordered modules
  let totals := computeTotals order settings
  order.map fun m => ⟨m.path, fileScore m, totalOf totals m.path, m.dependencies, m.result⟩

/-- The rows of the files of a list. -/
def survey (parser : Parser) (settings : Settings α) (contents : Entries String)
    (paths : List String) : Except Failure (List (Row α)) :=
  (readModules parser settings (selected contents paths)).map fun modules =>
    rows settings (closed modules)

/-! ### Events -/

def readingEvents (parser : Parser) (settings : Settings α) : List Step → List (Event α)
  | [] => []
  | .skip path :: rest => .skipped path :: readingEvents parser settings rest
  | .take s :: rest =>
    match parseSource parser s with
    | .error failure => Event.ofFailure failure
    | .ok t =>
      Event.ofResult settings.depthLimit s.path (moduleFileResult settings t)
        ++ readingEvents parser settings rest

def unresolvedEvents (modules : List (Module α)) : List (Event α) :=
  let known := modules.map Module.path
  modules.flatMap fun m =>
    (m.dependencies.filter fun d => !known.contains d).map fun d => .unresolved d m.path

def orderEvents (modules : List (Module α)) : List (Event α) :=
  (prunedImports modules).map fun (path, target) => .pruned path target

def surveyEvents (parser : Parser) (settings : Settings α) (contents : Entries String)
    (paths : List String) : List (Event α) :=
  readingEvents parser settings (steps contents paths)
    ++ match readModules parser settings (selected contents paths) with
      | .error _ => []
      | .ok modules =>
        unresolvedEvents modules ++ orderEvents (closed modules)
          ++ (computeTotals (ordered (closed modules)) settings).events

/-! ### Surveys in numbers that may outgrow the doubles -/

/-- The result of a file, unless an import is refused or its score outgrows the doubles. -/
def boundedFileResult (settings : Settings Number) (t : Tree) : Except Failure (Result Number) := do
  checkImports settings t
  let result := moduleFileResult settings t
  Failure.checkValues [result.score]
  return result

def checkReading (parser : Parser) (settings : Settings Number) (sources : List Source) :
    Except Failure Unit :=
  sources.forM fun s => do
    let _ ← boundedFileResult settings (← parseSource parser s)

/-- The rows of the files of a list, unless a file is refused or a number outgrows the doubles. -/
def boundedSurvey (parser : Parser) (settings : Settings Number) (contents : Entries String)
    (paths : List String) : Except Failure (List (Row Number)) := do
  checkReading parser settings (selected contents paths)
  let rows ← survey parser settings contents paths
  Failure.checkValues (rows.map Row.total)
  return rows

/-- The events of the step at which a survey ends, unless it goes on after that step. It ends at a
file that cannot be parsed or has a refused import, which is not scored, and at a file whose score
has no value. -/
def lastEvents? (parser : Parser) (settings : Settings Number) : Step → Option (List (Event Number))
  | .skip _ => none
  | .take s =>
    match parseSource parser s with
    | .error failure => some (Event.ofFailure failure)
    | .ok t =>
      match checkImports settings t, boundedFileResult settings t with
      | .error _, _ => some []
      | .ok _, .error _ =>
        some (Event.ofResult settings.depthLimit s.path (moduleFileResult settings t))
      | .ok _, .ok _ => none

def boundedSurveyEvents (parser : Parser) (settings : Settings Number) (contents : Entries String)
    (paths : List String) : List (Event Number) :=
  let listed := steps contents paths
  match listed.findSome? (lastEvents? parser settings) with
  | none => surveyEvents parser settings contents paths
  | some last =>
    let before := listed.takeWhile fun step => (lastEvents? parser settings step).isNone
    readingEvents parser settings before ++ last

/-! ### Reports -/

def rankedRows (rows : List (Row α)) : List (Row α) :=
  Score.ranked Row.total rows

def rowLine (r : Row Number) : Except Failure String := do
  let file ← Failure.rounded r.fileScore
  let total ← Failure.rounded r.total
  return r.path ++ " file:" ++ toString file ++ " module:" ++ toString total ++ "\n"

def surveyReport (rows : List (Row Number)) : Except Failure String :=
  ((rankedRows rows).mapM rowLine).map String.join

end ComplexityMeter.Graph
