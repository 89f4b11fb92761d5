import ComplexityMeter.Config.Weights
import ComplexityMeter.Metrics.Report

/-!
# Weighing metrics

Given weights are open values, and only the scores that they meet decide whether they can weigh
them. A comparison and a report first make sure of that, and then go on with weights that are
numbers.
-/

namespace ComplexityMeter.Config.WeightsGiven

open Metrics (Comparison DetailedReport Record Weights measureCode)
open Syntax (Parser)

/-- Compares two records of metrics. The scores of the first one are weighed first. -/
def compare (given : WeightsGiven) (a b : Record Number) : Except Failure (Comparison Number) := do
  let _ ← given.weightsFor a.score
  let weights ← given.weightsFor b.score
  return Metrics.compare weights a b

/-- Compares two source texts. Both are measured before anything is weighed. -/
def compareCode (given : WeightsGiven) (parser : Parser) (settings : Settings Number)
    (a b : String) : Except Failure (Comparison Number) := do
  let first ← measureCode parser settings settings.language.name Score.Context.unnamed a
  let second ← measureCode parser settings settings.language.name Score.Context.unnamed b
  given.compare first second

def report (given : WeightsGiven) (m : Record Number) :
    Except Failure (Weights Number × DetailedReport) := do
  let weights ← given.weightsFor m.score
  return (weights, Metrics.detailedReport weights m)

end ComplexityMeter.Config.WeightsGiven
