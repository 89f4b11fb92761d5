import ComplexityMeter.Command.Document
import ComplexityMeter.Command.Invocation
import ComplexityMeter.Command.Outcome
import ComplexityMeter.Config.Source
import ComplexityMeter.Config.Weighing

/-!
# Running a command

Commands over several files isolate failures: a file that cannot be read or parsed is reported and
left out, and the command ends with the status one after all others have been dealt with. A
configuration that is refused ends any command before it looks at a file.
-/

namespace ComplexityMeter.Command

open Config (Surroundings)
open Metrics (Category Comparison DetailedReport Record Weights)
open Score (Summary)
open Syntax (Language Parser Tree)

def versionNumber : String := "0.1.0"

/-! ### Files one by one -/

def failureReport (path : String) (failure : Failure) : String :=
  "[red]Error:[/red] " ++ path ++ ": " ++ failure.message

/-- What became of a file. -/
structure Attempt (β : Type) where
  path : String
  outcome : Except Failure β

namespace Attempt

variable {β : Type}

def isFailure (a : Attempt β) : Bool :=
  match a.outcome with
  | .ok _ => false
  | .error _ => true

def report? (a : Attempt β) : Option String :=
  match a.outcome with
  | .ok _ => none
  | .error failure => some (failureReport a.path failure)

def success? (a : Attempt β) : Option (String × β) :=
  match a.outcome with
  | .ok made => some (a.path, made)
  | .error _ => none

def all (deal : String → Except Failure β) (paths : List String) : List (Attempt β) :=
  paths.map fun path => ⟨path, deal path⟩

def reports (attempts : List (Attempt β)) : List String :=
  attempts.filterMap report?

def successes (attempts : List (Attempt β)) : List (String × β) :=
  attempts.filterMap success?

/-- The status is one as soon as one file failed. -/
def status (attempts : List (Attempt β)) : Nat :=
  if attempts.any isFailure then 1 else 0

/-- The outcome of a command that reports its failures and then prints what it made of the rest. -/
def outcomeOf (console : Console) (attempts : List (Attempt β)) (prints : List Print) : Outcome :=
  Outcome.ofPrints console (status attempts) ((reports attempts).map .problem ++ prints)
    Outcome.empty

/-- Goes on with everything that was made, up to the first failure. -/
def goOn {γ : Type} (next : β → Except Failure γ) (attempts : List (Attempt β)) :
    Except Failure (List (String × γ)) :=
  (successes attempts).mapM fun (path, made) => (next made).map fun more => (path, more)

/-- The reports before the first file with which it is impossible to go on. -/
def reportsBefore {γ : Type} (next : β → Except Failure γ) (attempts : List (Attempt β)) :
    List String :=
  reports (attempts.takeWhile fun a =>
    match a.outcome with
    | .ok made => (next made).toOption.isSome
    | .error _ => true)

/-- The outcome of a command that goes on with everything that was made. Unlike the failure of a
file, a failure to go on ends the command. -/
def outcomeWith {γ : Type} (console : Console) (attempts : List (Attempt β))
    (next : β → Except Failure γ) (prints : List (String × γ) → List Print) : Outcome :=
  match goOn next attempts with
  | .ok made => outcomeOf console attempts (prints made)
  | .error failure =>
    Outcome.ofPrints console 1 ((reportsBefore next attempts).map .problem ++ [.failure failure])
      Outcome.empty

end Attempt

/-- Reads and parses a file. The language is chosen by its path. -/
def parseFile (parser : Parser) (files : Files) (path : String) : Except Failure Tree := do
  Tree.parse parser (Language.ofPath path) path (← files.readSource path)

/-! ### Parts of what is printed -/

def scoreLine (path : String) (scalar : Number) : Print :=
  .line ("[bold cyan]" ++ path ++ "[/bold cyan] -- score [bold]" ++ scalar.fixed 2 ++ "[/bold]")

def leftColumn (header : String) (leastWidth : Nat) : Column :=
  ⟨header, .left, leastWidth⟩

def rightColumn (header : String) : Column :=
  ⟨header, .right, 0⟩

def categoryTable (records : List (String × Record Number)) : Table :=
  { title := none
    columns := leftColumn "Category" 24 :: records.map fun r => rightColumn r.1
    rows := Category.all.map fun c => c.label :: records.map fun r => (r.2.score c).fixed 2 }

/-! ### Scores of files -/

/-- What is found out about one file. -/
structure Analysis where
  metrics : Record Number
  scalar : Number
  summary : Summary Number
  hotspotCount : Nat

def analyzeTree (config : Config) (t : Tree) : Except Failure Analysis := do
  let settings := config.settings
  let metrics := Metrics.measureTree settings t
  let result := Score.scoreFile settings.ceiling t
  let topCount ← config.topCount.mapError Failure.misuse
  let weights ← config.weights.weightsFor metrics.score
  return {
    metrics
    scalar := Metrics.scalar weights metrics
    summary := Score.summarize topCount result
    hotspotCount := (Score.hotspots settings.hotspotThreshold result).length }

def hotspotTable (count : Nat) (m : Record Number) : Table :=
  { title := some "Hotspots"
    columns := [rightColumn "Line", leftColumn "Kind" 0, rightColumn "Score",
      leftColumn "Reason" 0]
    rows := (m.hotspots.take count).map fun h =>
      [toString h.line, h.kind, h.score.fixed 2, h.reason.text] }

def summaryText (settings : Settings Number) (a : Analysis) : String :=
  "[dim]Syntax tree: " ++ toString a.summary.nodeCount ++ " nodes, depth "
    ++ toString a.summary.height ++ ", median " ++ a.summary.median.fixed 2 ++ ", p90 "
    ++ a.summary.ninetieth.fixed 2 ++ ", " ++ toString a.hotspotCount ++ " nodes >= "
    ++ settings.hotspotThreshold.general ++ "[/dim]"

def summaryLine (settings : Settings Number) (a : Analysis) : Print :=
  if settings.hotspotThreshold.double?.isSome then .line (summaryText settings a)
  else .failure .tooLarge

def analysisPrints (settings : Settings Number) (hotspots : Nat) (path : String) (a : Analysis) :
    List Print :=
  [.line "", scoreLine path a.scalar, .table (categoryTable [("Score", a.metrics)])]
    ++ (if hotspots = 0 ∨ a.metrics.hotspots.isEmpty then []
        else [.table (hotspotTable hotspots a.metrics)])
    ++ [summaryLine settings a]

def analysisDatum (path : String) (a : Analysis) : Datum :=
  .table [("path", .text path), ("score", .number a.scalar), ("metrics", recordDatum a.metrics),
    ("tree", treeDatum a.summary a.hotspotCount)]

def runAnalyze (console : Console) (parser : Parser) (files : Files) (config : Config)
    (paths : List String) (hotspots : Nat) (simple json : Bool) : Outcome :=
  let parsed := Attempt.all (parseFile parser files) paths
  Attempt.outcomeWith console parsed (analyzeTree config) fun analyses =>
    if json then [.document (.list (analyses.map fun (path, a) => analysisDatum path a))]
    else if simple then
      analyses.map fun (path, a) => .unbroken (path ++ " " ++ a.scalar.fixed 2)
    else analyses.flatMap fun (path, a) => analysisPrints config.settings hotspots path a

/-! ### Comparison of two files -/

def comparisonDatum (first second : String) (c : Comparison Number) : Datum :=
  let side (path : String) (scalar : Number) (m : Record Number) : Datum :=
    .table [("path", .text path), ("score", .number scalar), ("metrics", recordDatum m)]
  .table [("a", side first c.firstScalar c.first), ("b", side second c.secondScalar c.second),
    ("verdict", .text (verdictName c.verdict))]

def comparisonPrints (first second : String) (c : Comparison Number) : List Print :=
  let side (name path : String) (scalar : Number) : Print :=
    .line ("[bold]" ++ name ++ "[/bold] " ++ path ++ ": [bold]" ++ scalar.fixed 2 ++ "[/bold]")
  let verdict :=
    match c.verdict with
    | .first => "[green]Simpler:[/green] " ++ first
    | .second => "[green]Simpler:[/green] " ++ second
    | .neither => "[yellow]Both files are equally complex[/yellow]"
  [.line "", side "A" first c.firstScalar, side "B" second c.secondScalar, .line verdict,
    .table (categoryTable [("A", c.first), ("B", c.second)])]

/-- Compares two files; the first one that fails ends the command. -/
def runCompare (console : Console) (parser : Parser) (files : Files) (config : Config)
    (first second : String) (json : Bool) : Outcome :=
  let measured := Attempt.all
    (fun path => (parseFile parser files path).map (Metrics.measureTree config.settings))
    [first, second]
  match Attempt.successes measured with
  | [a, b] =>
    match config.weights.compare a.2 b.2 with
    | .ok c =>
      Outcome.ofPrints console 0
        (if json then [.document (comparisonDatum first second c)]
         else comparisonPrints first second c)
        Outcome.empty
    | .error failure => Outcome.ofPrints console 1 [.failure failure] Outcome.empty
  | _ =>
    Outcome.ofPrints console 1 (((Attempt.reports measured).take 1).map .problem) Outcome.empty

/-! ### Breakdowns of files -/

def reportTable (r : DetailedReport) : Table :=
  { title := none
    columns := [leftColumn "Category" 24, rightColumn "Value", rightColumn "Weighted"]
    rows := r.breakdown.map fun line =>
      [line.category.label, line.value.fixed 2, line.weighted.fixed 2] }

def reportPrints (hotspots : Bool) (path : String) (r : DetailedReport) : List Print :=
  [.line "", scoreLine path r.scalar, .table (reportTable r)]
    ++ (if hotspots then [.plain (Metrics.hotspotText none r.metrics)] else [])

def reportDatum (path : String) (r : DetailedReport) : Datum :=
  .table [("path", .text path), ("score", .number r.scalar),
    ("breakdown", breakdownDatum r.breakdown), ("metrics", recordDatum r.metrics)]

/-- Reads and measures a file for a report. Its source goes without a name there, so a syntax error
names none. -/
def measureFile (parser : Parser) (files : Files) (settings : Settings Number) (path : String) :
    Except Failure (Record Number) := do
  let code ← files.readSource path
  let t ← Tree.parse parser (Language.ofPath path) Score.Context.unnamed code
  return Metrics.measureTree settings t

def runReport (console : Console) (parser : Parser) (files : Files) (config : Config)
    (paths : List String) (hotspots json : Bool) : Outcome :=
  let measured := Attempt.all (measureFile parser files config.settings) paths
  let next (m : Record Number) := (config.weights.report m).map Prod.snd
  Attempt.outcomeWith console measured next fun reports =>
    if json then [.document (.list (reports.map fun (path, r) => reportDatum path r))]
    else reports.flatMap fun (path, r) => reportPrints hotspots path r

/-! ### Totals of modules -/

def moduleTable (rows : List (Graph.Row Number)) : Table :=
  { title := some "Module complexity"
    columns := [leftColumn "Module" 24, rightColumn "File", rightColumn "Module",
      leftColumn "Dependencies" 0]
    rows := rows.map fun r =>
      [r.path, r.fileScore.fixed 2, r.total.fixed 2,
        if r.dependencies = [] then "-" else String.intercalate ", " r.dependencies] }

/-- Reads a file and checks that it can be parsed; its text is kept. -/
def checkedSource (parser : Parser) (files : Files) (path : String) : Except Failure String := do
  let code ← files.readSource path
  let _ ← Tree.parse parser (Language.ofPath path) path code
  return code

/-- The rows of a survey of sources, those with the greatest totals first. -/
def surveyedRows (parser : Parser) (settings : Settings Number) (sources : Entries String) :
    Except Failure (List (Graph.Row Number)) :=
  (Graph.boundedSurvey parser settings (Entries.update [] sources) (sources.map Prod.fst)).map
    Graph.rankedRows

def runModule (console : Console) (parser : Parser) (files : Files) (config : Config)
    (paths : List String) (json : Bool) : Outcome :=
  let checked := Attempt.all (checkedSource parser files) paths
  match surveyedRows parser config.settings (Attempt.successes checked) with
  | .ok rows =>
    Attempt.outcomeOf console checked
      (if json then [.document (.list (rows.map rowDatum))] else [.table (moduleTable rows)])
  | .error failure =>
    Outcome.ofPrints console 1 ((Attempt.reports checked).map .problem ++ [.failure failure])
      Outcome.empty

/-! ### All commands -/

/-- Loads the configuration of a command and goes on with it. A refused setting is reported. -/
def withConfig (console : Console) (s : Surroundings) (common : Common)
    (run : Config → Outcome) : Outcome :=
  match Config.load s common.config Config.Layer.empty with
  | .ok config => run config
  | .error (.invalidSetting key value reason) =>
    let message := (Failure.invalidSetting key value reason).message
    Outcome.ofPrints console 1 [.line ("[red]Error:[/red] " ++ message)] Outcome.empty
  | .error failure => Outcome.ofPrints console 1 [.failure failure] Outcome.empty

def versionLine : Print :=
  .line ("[bold cyan]Complexity Insight[/bold cyan] version [green]" ++ versionNumber
    ++ "[/green]")

def run (console : Console) (parser : Parser) (s : Surroundings) : Invocation → Outcome
  | .version => Outcome.ofPrints console 0 [versionLine] Outcome.empty
  | .help topic => Outcome.ofPrints console 0 [.screen topic.screen] Outcome.empty
  | .analyze files hotspots simple common =>
    withConfig console s common fun config =>
      runAnalyze console parser s.files config files hotspots simple common.json
  | .compare first second common =>
    withConfig console s common fun config =>
      runCompare console parser s.files config first second common.json
  | .report files hotspots common =>
    withConfig console s common fun config =>
      runReport console parser s.files config files hotspots common.json
  | .module files common =>
    withConfig console s common fun config =>
      runModule console parser s.files config files common.json

def usageStatus : Nat := 2

def runLine (console : Console) (parser : Parser) (s : Surroundings) (arguments : List String) :
    Outcome :=
  match invocation? s.files arguments with
  | some invocation => run console parser s invocation
  | none => { Outcome.empty with status := usageStatus }

end ComplexityMeter.Command
