import ComplexityMeter.Proofs.Entries
import ComplexityMeter.Proofs.Graph.Coverage
import ComplexityMeter.Proofs.Path.Meaning
import ComplexityMeter.Proofs.Terminal

/-!
# Commands over many files

A command that goes through a list of files reports those that cannot be read or parsed, and tells
of the others what it would tell of them alone. Its status says whether a file failed. All of this
ends where the console refuses a report: the path of a file is part of its report, and marks in it
count as marks.
-/

namespace ComplexityMeter.Command

open Config (Surroundings)
open Syntax (Language Parser Tree)

/-! ### Failures of files -/

/-- The failure of a file to be read or parsed. -/
def IsOfFile : Failure → Prop
  | .fileAccess _ _ | .parsing _ _ _ => True
  | _ => False

section

variable {parser : Parser} {files : Files} {paths : List String}

end

/-! ### Commands over a list of files -/

/-- Whether a file can be read, and parsed in the language of its path. -/
def loads (parser : Parser) (files : Files) (path : String) : Bool :=
  match files.readSource path with
  | .ok code => !(parser (Language.ofPath path) code).hasError
  | .error _ => false

section

variable {β : Type} {parser : Parser} {files : Files} {path : String}

end

/-- The commands that go through a list of files. -/
inductive Batch where
  | analyze (hotspots : Nat) (simple : Bool)
  | report (hotspots : Bool)
  | module
  deriving DecidableEq, Repr

namespace Batch

/-- The invocation of a command over some files. -/
def invocation (paths : List String) (common : Common) : Batch → Invocation
  | .analyze hotspots simple => .analyze paths hotspots simple common
  | .report hotspots => .report paths hotspots common
  | .module => .module paths common

section

variable (parser : Parser) (files : Files) (config : Config) (paths : List String)

def failure? (path : String) : Batch → Option Failure
  | .analyze _ _ => failureOf? (parseFile parser files path)
  | .report _ => failureOf? (measureFile parser files config.settings path)
  | .module => failureOf? (checkedSource parser files path)

def reports (b : Batch) : List String :=
  paths.filterMap fun path => (b.failure? parser files config path).map (failureReport path)

/-- What a command tells other programs of the files that can be read and parsed, unless it fails
at that. -/
def document : Batch → Except Failure Datum
  | .analyze _ _ =>
    (Attempt.goOn (analyzeTree config) (Attempt.all (parseFile parser files) paths)).map
      fun analyses => .list (analyses.map fun (path, a) => analysisDatum path a)
  | .report _ =>
    (Attempt.goOn (fun m => (config.weights.report m).map Prod.snd)
      (Attempt.all (measureFile parser files config.settings) paths)).map
      fun reports => .list (reports.map fun (path, r) => reportDatum path r)
  | .module =>
    (surveyedRows parser config.settings
      (Attempt.successes (Attempt.all (checkedSource parser files) paths))).map
      fun rows => .list (rows.map rowDatum)

/-- What a command needs of the files that load: weights that can weigh what they score, for an
analysis also a whole count of top entries, and for a survey that no file is refused and no total
without a value. -/
def CanGoOn : Batch → Prop
  | .analyze _ _ => ∀ path ∈ paths, ∀ t, parseFile parser files path = .ok t →
    (∃ count, config.topCount = .ok count) ∧ ∃ weights,
      config.weights.weightsFor (Metrics.measureTree config.settings t).score = .ok weights
  | .report _ => ∀ path ∈ paths, ∀ m, measureFile parser files config.settings path = .ok m →
    ∃ weights, config.weights.weightsFor m.score = .ok weights
  | .module =>
    let sources := Attempt.successes (Attempt.all (checkedSource parser files) paths)
    let contents := Entries.update [] sources
    let listed := sources.map Prod.fst
    (∀ s ∈ Graph.selected contents listed, ∀ failure,
      ¬ s.IsRefused parser config.settings failure)
    ∧ ∃ rows, Graph.survey parser config.settings contents listed = .ok rows
      ∧ ∀ r ∈ rows, r.total.hasValue = true

end

variable {parser : Parser} {s : Surroundings} {config : Config} {common : Common}
  {paths : List String}

end Batch

/-- What a command makes of the files of a list that can be read and parsed does not depend on the
others, as far as the console shows their reports. -/
structure Isolates (console : Console) (parser : Parser) (s : Surroundings) (config : Config)
    (common : Common) (paths : List String) (b : Batch) : Prop where
  /-- No failure of a file ends the command. -/
  contained : ∀ failure, (run console parser s (b.invocation paths common)).escape?
      = some (.failure failure) → ¬ IsOfFile failure
  /-- There is a document, unless the configuration is of no use to the files. -/
  made : (∃ d, b.document parser s.files config paths = .ok d)
    ↔ b.CanGoOn parser s.files config paths
  /-- Of the files that can be read and parsed alone, the document is printed and no report. -/
  alone : run console parser s (b.invocation (paths.filter (loads parser s.files)) common)
    = match b.document parser s.files config paths with
      | .ok d => ⟨0, Json.writeIndented d ++ "\n", "", none⟩
      | .error failure => ⟨1, "", "", some (.failure failure)⟩
  /-- The files that fail change nothing but the status, if their reports can be shown. -/
  shown : ∀ {texts d},
    (b.reports parser s.files config paths).mapM console.marked = .ok texts →
    b.document parser s.files config paths = .ok d →
      run console parser s (b.invocation paths common)
        = ⟨if paths.all (loads parser s.files) then 0 else 1, Json.writeIndented d ++ "\n",
            Outcome.lines texts, none⟩
  /-- So it is where no document can be made. -/
  ended : ∀ {texts failure},
    (b.reports parser s.files config paths).mapM console.marked = .ok texts →
    b.document parser s.files config paths = .error failure →
      ∃ errors, run console parser s (b.invocation paths common)
        = ⟨1, "", errors, some (.failure failure)⟩
  /-- A console that reads marks shows reports in which no mark begins. -/
  plain : console.ReadsMarks →
    (∀ path ∈ paths, ∀ failure ∈ b.failure? parser s.files config path,
      IsPlain (" " ++ path ++ ": " ++ failure.message).toList) →
    ∃ texts, (b.reports parser s.files config paths).mapM console.marked = .ok texts
  /-- A report that is refused ends the command. -/
  hidden : ∀ {refusal},
    (b.reports parser s.files config paths).mapM console.marked = .error refusal →
      ∃ errors escape, run console parser s (b.invocation paths common)
        = ⟨1, "", errors, some escape⟩
  /-- A console that reads marks refuses the report of a path that begins with a closing mark. -/
  closing : console.ReadsMarks → ∀ path ∈ paths, loads parser s.files path = false →
    ∀ {name rest}, path = "[/" ++ name ++ "]" ++ rest → '[' ∉ name.toList → ']' ∉ name.toList →
    ∃ refusal, (b.reports parser s.files config paths).mapM console.marked = .error refusal
  /-- A file is parsed in one language, whatever the form of its path. -/
  language : ∀ path ∈ paths, Language.ofPath (Path.normalize path) = Language.ofPath path

/-- Where the reports can be shown, the files that fail change the output in no way, and the status
to one. -/
theorem Isolates.output_eq {console : Console} {parser : Parser} {s : Surroundings}
    {config : Config} {common : Common} {paths texts : List String} {b : Batch}
    (isolates : Isolates console parser s config common paths b)
    (readable : (b.reports parser s.files config paths).mapM console.marked = .ok texts) :
    let whole := run console parser s (b.invocation (paths.filter (loads parser s.files)) common)
    (run console parser s (b.invocation paths common)).output = whole.output
    ∧ (run console parser s (b.invocation paths common)).status
      = if paths.all (loads parser s.files) then whole.status else 1 := by
  rw [isolates.alone]
  cases going : b.document parser s.files config paths with
  | ok d =>
    rw [isolates.shown readable going]
    exact ⟨rfl, rfl⟩
  | error failure =>
    obtain ⟨errors, ended⟩ := isolates.ended readable going
    rw [ended]
    exact ⟨rfl, (ite_self 1).symm⟩

end ComplexityMeter.Command
