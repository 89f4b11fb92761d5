import ComplexityMeter.Failure
import ComplexityMeter.Metrics.Category

/-!
# Weights of a configuration

A configuration keeps the weights of the categories as they were given, one value for every
category or a value that is no record of weights at all. Only when they weigh a score do they have
to be numbers.
-/

namespace ComplexityMeter.Config

open Metrics (Category Weights)

/-- The values given as weights, one for every category. -/
abbrev WeightRecord := Category → Datum

namespace WeightRecord

def default : WeightRecord := fun c => .number (Weights.default c)

/-- The record with the given entries; the first name that is no category is refused. -/
def ofEntries (entries : Entries Datum) : Except Misuse WeightRecord :=
  match entries.find? fun entry => (Category.ofWeightName? entry.1).isNone with
  | some (name, _) => .error (.unknownField "ComplexityWeights" name)
  | none => .ok fun c => (Entries.get? c.weightName entries).getD (default c)

def expression (r : WeightRecord) : String :=
  "ComplexityWeights("
    ++ String.intercalate ", "
      (Category.all.map fun c => c.weightName ++ "=" ++ (r c).expression)
    ++ ")"

/-- No text or list can have as many members as this. -/
def lengthLimit : Int := Int.ofNat (Nat.pow 2 63)

/-- More members than this do not fit into memory. -/
def roomLimit : Int := Int.ofNat (Nat.pow 2 46)

/-- Why a text or a list with so many members cannot weigh a score: a whole number repeats it, and
what comes of that is no number to be added to a sum. -/
def repetitionFailure (sum score : Number) (kind : String) (members : Nat) : Failure :=
  match score with
  | .int n =>
    if n < -lengthLimit ∨ lengthLimit ≤ n then .tooLarge
    else if roomLimit < n * members then .noRoom
    else .misuse (.unaddable (Value.number sum).kindName kind)
  | _ => .misuse .repeatedFractionally

/-- Adds a weighted score to a sum. Only numbers and truth values weigh anything. -/
def addWeighted (sum score : Number) (weight : Datum) : Except Failure Number :=
  match weight.number?, weight with
  | some w, _ => do
    let next := sum + score * w
    Failure.checkValues [next]
    return next
  | none, .text s => .error (repetitionFailure sum score weight.kindName s.length)
  | none, .list items =>
    .error (repetitionFailure sum score weight.kindName items.length)
  | none, _ =>
    .error (.misuse (.unmultipliable (Value.number score).kindName weight.kindName))

/-- The weighted sum of scores in reporting order, where all weights are numbers that can weigh
them. -/
def weightedSum (r : WeightRecord) (score : Category → Number) : Except Failure Number :=
  Category.all.foldlM (fun sum c => addWeighted sum (score c) (r c)) (.int 0)

/-- The weights as numbers, for scores that they are to weigh. What fails in the weighted sum of the
scores is refused. -/
def weightsFor (r : WeightRecord) (score : Category → Number) : Except Failure (Weights Number) :=
  (weightedSum r score).map fun _ c => ((r c).number?).getD (Weights.default c)

end WeightRecord

/-- What is given as weights. -/
inductive WeightsGiven where
  | record (record : WeightRecord)
  | value (value : Datum)

def WeightsGiven.weightsFor (given : WeightsGiven) (score : Category → Number) :
    Except Failure (Weights Number) :=
  match given with
  | .record r => r.weightsFor score
  | .value v => .error (.misuse (.noAttribute v.kindName Category.mutability.weightName))

end ComplexityMeter.Config
