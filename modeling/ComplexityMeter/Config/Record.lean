import ComplexityMeter.Config.Field
import ComplexityMeter.Config.Weights
import ComplexityMeter.Path
import ComplexityMeter.Settings

/-!
# Configurations

A configuration is built from the values given for its fields; fields without one have their
default. It is checked field by field and the first value that does not fit is refused. An analysis
then reads its settings off the accepted values.
-/

namespace ComplexityMeter

/-- A configuration with the values as they were given. -/
structure Config where
  value : Config.Field → Datum
  weights : Config.WeightsGiven

namespace Config

open Score (Ceiling)
open Syntax (Language)

def default : Config :=
  ⟨Field.default, .record WeightRecord.default⟩

def fieldNames : List String :=
  Field.all.map Field.name ++ ["weights"]

def checkNames (fields : Entries Datum) : Except Failure Unit :=
  match fields.find? fun entry => !fieldNames.contains entry.1 with
  | some (name, _) => .error (.misuse (.unknownField "AnalysisConfig" name))
  | none => .ok ()

/-- Checks the values of all fields; the first refusal counts. -/
def checkValues (value : Field → Datum) : Except Failure Unit :=
  Field.checkOrder.forM fun f => f.check (value f)

def valueIn (fields : Entries Datum) (f : Field) : Datum :=
  (Entries.get? f.name fields).getD f.default

def ofEntries (fields : Entries Datum) (weights : Option WeightsGiven) : Except Failure Config := do
  checkNames fields
  checkValues (valueIn fields)
  return ⟨valueIn fields, weights.getD default.weights⟩

/-! ### Settings -/

/-- A number among the values; a value of another kind, which no check accepts, counts as zero. -/
def numberOf (c : Config) (f : Field) : Number :=
  (c.value f).number?.getD (.int 0)

/-- A bound for depths: depths stay below a number when they stay below the least integer that is
not below it. An infinite or undefined bound is none. -/
def ceilingBelow (bound : Number) : Ceiling :=
  if bound.isFinite then .level bound.ceil else .unlimited

def ceilingAt (bound : Number) : Ceiling :=
  if bound.isFinite then .level bound.floor else .unlimited

def language (c : Config) : Language :=
  match c.value .language with
  | .text s => (Language.ofName? s).getD .typescript
  | _ => .typescript

/-- A default file that is no text can stand behind a directory, but not alone. -/
def notAlone (c : Config) : Option Misuse :=
  match c.value .defaultFile with
  | .text _ => none
  | other => some (.notAppended other.kindName)

def settings (c : Config) : Settings Number :=
  { ceiling := ceilingBelow (c.numberOf .maxDepth)
    depthLimit := (c.numberOf .maxDepth).truncate
    language := c.language
    hotspotThreshold := c.numberOf .hotspotThreshold
    leastHotspot := c.numberOf .leastHotspot
    moduleCeiling := ceilingAt (c.numberOf .moduleMaxDepth)
    defaultFile := (c.value .defaultFile).shown
    notAlone := c.notAlone
    damping := c.numberOf .damping
    libraryWeight := c.numberOf .libraryWeight
    localWeight := c.numberOf .localWeight
    mutabilityFactor := c.numberOf .mutabilityFactor }

/-- The file that an import names. A default file that is no text can stand behind a directory, but
not alone. -/
def resolve (c : Config) (base specifier : String) : Except Misuse String :=
  let resolved := Path.resolve base specifier (c.value .defaultFile).shown
  match c.notAlone with
  | none => .ok resolved
  | some cause => if Path.namesRoot base specifier then .error cause else .ok resolved

/-- How many top entries a summary keeps; a count must be whole. -/
def topCount (c : Config) : Except Misuse Int :=
  match c.numberOf .topCount with
  | .int n => .ok n
  | .float _ | .overflow => .error .fractionalCount

end Config

end ComplexityMeter
