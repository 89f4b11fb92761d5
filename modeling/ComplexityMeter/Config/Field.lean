import ComplexityMeter.Failure
import ComplexityMeter.Syntax.Language

/-!
# Fields of a configuration

A configuration has eleven single values and the weights of the categories. A value may come from
anywhere, so it is kept as it was given; what a field demands of its value is checked here.
-/

namespace ComplexityMeter.Config

open Syntax (Language)

/-- The single values of a configuration. -/
inductive Field where
  | maxDepth
  | language
  | hotspotThreshold
  | leastHotspot
  | topCount
  | moduleMaxDepth
  | defaultFile
  | damping
  | libraryWeight
  | localWeight
  | mutabilityFactor
  deriving DecidableEq, Repr

/-- How the text of an environment variable is read. -/
inductive Kind where
  | whole
  | fractional
  | words
  deriving DecidableEq, Repr

namespace Field

/-- All fields, in the order in which the environment is searched for them. -/
def all : List Field :=
  [.maxDepth, .language, .hotspotThreshold, .leastHotspot, .topCount, .moduleMaxDepth,
    .defaultFile, .damping, .libraryWeight, .localWeight, .mutabilityFactor]

theorem mem_all (f : Field) : f ∈ all := by
  cases f <;> decide

def name : Field → String
  | .maxDepth => "max_depth"
  | .language => "language"
  | .hotspotThreshold => "hotspot_threshold"
  | .leastHotspot => "metrics_hotspot_min_score"
  | .topCount => "summary_top_n"
  | .moduleMaxDepth => "module_max_depth"
  | .defaultFile => "default_module_file"
  | .damping => "dependency_damping"
  | .libraryWeight => "library_import_weight"
  | .localWeight => "local_import_weight"
  | .mutabilityFactor => "mutability_factor"

def variableName (f : Field) : String :=
  "COMPLEXITY_" ++ String.ofList (f.name.toList.map Char.toUpper)

def kind : Field → Kind
  | .maxDepth | .topCount | .moduleMaxDepth => .whole
  | .language | .defaultFile => .words
  | _ => .fractional

def default : Field → Datum
  | .maxDepth => .number (.int 20)
  | .language => .text "typescript"
  | .hotspotThreshold => .number (.float 5.0)
  | .leastHotspot => .number (.float 3.0)
  | .topCount => .number (.int 5)
  | .moduleMaxDepth => .number (.int 10)
  | .defaultFile => .text "mod.ts"
  | .damping => .number (.float 0.5)
  | .libraryWeight => .number (.float 3.0)
  | .localWeight => .number (.float 1.0)
  | .mutabilityFactor => .number (.float 0.5)

end Field

/-! ### Demands -/

/-- What a field demands of its value. -/
inductive Demand where
  | atLeastOne
  | notNegative
  | knownLanguage
  | bareFileName
  deriving DecidableEq, Repr

namespace Demand

def reason : Demand → String
  | .atLeastOne => "must be at least 1"
  | .notNegative => "must be non-negative"
  | .knownLanguage => "expected one of " ++ String.intercalate ", " Language.names
  | .bareFileName => "must be a bare file name"

/-- Whether a value lies below a bound. Truth values count as one and zero; a NaN lies below
nothing. -/
def isBelow (bound : Int) : Datum → Except Misuse Bool
  | .number x => .ok (decide (x < .int bound))
  | .truth b => .ok (decide ((if b then 1 else 0) < bound))
  | other => .error (.unordered "<" other.kindName (Value.number (.int bound)).kindName)

/-- Whether a value holds a slash: a text anywhere in it, a collection among its members. -/
def holdsSlash : Datum → Except Misuse Bool
  | .text s => .ok (s.toList.contains '/')
  | .list items =>
    .ok (items.any fun item =>
      match item with
      | .text s => s = "/"
      | _ => false)
  | .table entries => .ok ((Entries.get? "/" entries).isSome)
  | other => .error (.unsearchable other.kindName)

def isLanguage : Datum → Bool
  | .text s => (Language.ofName? s).isSome
  | _ => false

/-- Whether a value meets a demand. Demands on a value of the wrong kind have no answer. -/
def isMet (demand : Demand) (value : Datum) : Except Misuse Bool :=
  match demand with
  | .atLeastOne => (isBelow 1 value).map (!·)
  | .notNegative => (isBelow 0 value).map (!·)
  | .knownLanguage => .ok (isLanguage value)
  | .bareFileName => if value.isTruthy then (holdsSlash value).map (!·) else .ok false

end Demand

def Field.demand : Field → Demand
  | .maxDepth | .topCount => .atLeastOne
  | .language => .knownLanguage
  | .defaultFile => .bareFileName
  | _ => .notNegative

/-- The fields in the order in which they are checked. -/
def Field.checkOrder : List Field :=
  [.maxDepth, .moduleMaxDepth, .language, .topCount, .defaultFile, .hotspotThreshold,
    .leastHotspot, .damping, .libraryWeight, .localWeight, .mutabilityFactor]

theorem Field.mem_checkOrder (f : Field) : f ∈ Field.checkOrder := by
  cases f <;> decide

/-- Refuses a value that does not meet what its field demands. -/
def Field.check (f : Field) (value : Datum) : Except Failure Unit :=
  match f.demand.isMet value with
  | .ok true => .ok ()
  | .ok false => .error (.ofSetting f.name value f.demand.reason)
  | .error cause => .error (.misuse cause)

end ComplexityMeter.Config
