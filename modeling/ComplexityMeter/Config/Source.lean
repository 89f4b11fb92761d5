import ComplexityMeter.Config.Record
import ComplexityMeter.Files
import ComplexityMeter.Text.Numeral
import ComplexityMeter.Toml.Document

/-!
# Sources of a configuration

Values come from a file in the home directory, a file in the working directory, a file that is
named explicitly, environment variables, and overrides. Each source is a layer over the ones before
it: a value that it gives hides the earlier ones, and weights are taken over as a whole. A source
that cannot be read fails the whole configuration, whatever later sources say.
-/

namespace ComplexityMeter.Config

open Metrics (Category)

/-- The values that one source gives. -/
structure Layer where
  fields : Entries Datum
  weights : Option WeightsGiven

namespace Layer

def empty : Layer := ⟨[], none⟩

def atop (upper lower : Layer) : Layer :=
  ⟨Entries.update lower.fields upper.fields, upper.weights.or lower.weights⟩

def ofTable (table : Entries Datum) : Layer :=
  ⟨Entries.erase "weights" table, (Entries.get? "weights" table).map .value⟩

/-- One layer from several, each over the ones before it. -/
def stack (layers : List Layer) : Layer :=
  layers.foldl (fun lower upper => upper.atop lower) empty

end Layer

/-! ### Files -/

def homeFile : String := ".complexity-insight.toml"

def projectFile : String := "complexity-insight.toml"

def notSettings : String := "not a TOML document"

def tableOf? (octets : List Nat) : Option (Entries Datum) :=
  match Text.Utf8.decode? octets with
  | .ok document => Toml.read? document
  | .error _ => none

/-- The layer of what was found at a path; nothing if there is no file. -/
def fileLayer (path : String) (found : Found) : Except Failure (Option Layer) :=
  match found with
  | .file octets =>
    match tableOf? octets with
    | some table => .ok (some (Layer.ofTable table))
    | none => .error (.invalidSetting "config_file" path notSettings)
  | .directory => .error (.invalidSetting "config_file" path (Files.refusal path found))
  | .absent | .belowFile => .ok none
  | .tooLong => .error .longPath

/-- The layer of the file that is named explicitly, which must exist. -/
def explicitLayer (files : Files) (path : String) : Except Failure Layer := do
  let name := Path.tidy path
  match ← fileLayer name (files.working.find name) with
  | some layer => return layer
  | none => throw (.invalidSetting "config_file" name "file not found")

/-! ### Environment -/

/-- How many characters of a quoted text a message about a whole numeral shows, the opening quote
included. -/
def quoteLimit : Nat := 200

def wholeReason (s : String) : Text.WholeFault → String
  | .malformed =>
    "invalid literal for int() with base 10: "
      ++ String.ofList ((Text.quote s).toList.take quoteLimit)
  | .tooLong digits =>
    "Exceeds the limit (" ++ toString Text.wholeDigitLimit
      ++ " digits) for integer string conversion: value has " ++ toString digits
      ++ " digits; use sys.set_int_max_str_digits() to increase the limit"

def variableValue (f : Field) (s : String) : Except Failure Datum :=
  match f.kind with
  | .words => .ok (.text s)
  | .whole =>
    match Text.whole? s with
    | .ok n => .ok (.number (.int n))
    | .error fault => .error (.invalidSetting f.variableName s (wholeReason s fault))
  | .fractional =>
    match Text.fractional? s with
    | some x => .ok (.number (.float x))
    | none =>
      .error (.invalidSetting f.variableName s
        ("could not convert string to float: " ++ Text.quote s))

def variableSetting? (environment : Entries String) (f : Field) :
    Except Failure (Option (String × Datum)) :=
  match environment.get? f.variableName with
  | none => .ok none
  | some s => (variableValue f s).map fun v => some (f.name, v)

/-- The layer of the environment, which gives single values only. -/
def environmentLayer (environment : Entries String) : Except Failure Layer := do
  let entries ← Field.all.mapM (variableSetting? environment)
  return ⟨entries.filterMap id, none⟩

/-! ### All sources -/

/-- Everything that a configuration is loaded from. -/
structure Surroundings where
  files : Files
  environment : Entries String

def optionalLayer (path : String) (found : Found) : Except Failure Layer :=
  (fileLayer path found).map fun layer => layer.getD Layer.empty

/-- The layers of all sources, the weakest first. -/
def layers (s : Surroundings) (explicit : Option String) (overrides : Layer) :
    Except Failure (List Layer) := do
  let home ← optionalLayer ("~/" ++ homeFile) (s.files.home.find homeFile)
  let project ← optionalLayer projectFile (s.files.working.find projectFile)
  let named ← (explicit.mapM (explicitLayer s.files) : Except Failure (Option Layer))
  let environment ← environmentLayer s.environment
  return [home, project] ++ named.toList ++ [environment, overrides]

/-- Takes a table as weights; what is no table is refused, and nothing is taken as none given. -/
def acceptWeights : Option WeightsGiven → Except Failure (Option WeightRecord)
  | none | some (.value .null) => .ok none
  | some (.record r) => .ok (some r)
  | some (.value (.table entries)) =>
    match WeightRecord.ofEntries entries with
    | .ok r => .ok (some r)
    | .error cause => .error (.ofSetting "weights" (.table entries) cause.message)
  | some (.value other) =>
    .error (.ofSetting "weights" other "expected a table of category weights")

/-- The given values in a message, with the weights at the end. -/
def givenText (fields : Entries Datum) (weights : Option WeightRecord) : String :=
  let entries := fields.map (fun entry => (entry.1, entry.2.expression))
    ++ (weights.map fun r => ("weights", r.expression)).toList
  "\x7b" ++ String.intercalate ", " (entries.map fun entry =>
    Text.quote entry.1 ++ ": " ++ entry.2) ++ "\x7d"

def givenWritable (fields : Entries Datum) (weights : Option WeightRecord) : Bool :=
  Value.entriesWritable fields
    && weights.all fun r => Category.all.all fun c => (r c).isWritable

/-- The configuration of the values that all layers give together. A misplaced value is reported
with everything that was given. -/
def ofLayer (given : Layer) : Except Failure Config := do
  let weights ← acceptWeights given.weights
  match ofEntries given.fields (weights.map .record) with
  | .error (.misuse cause) =>
    if givenWritable given.fields weights then
      throw (.invalidSetting "config" (givenText given.fields weights) cause.message)
    else throw .longNumeral
  | outcome => outcome

def load (s : Surroundings) (explicit : Option String) (overrides : Layer) :
    Except Failure Config := do
  ofLayer (Layer.stack (← layers s explicit overrides))

end ComplexityMeter.Config
