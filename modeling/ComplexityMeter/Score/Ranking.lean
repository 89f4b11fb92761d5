import ComplexityMeter.Scalar
import ComplexityMeter.Score.Runs

/-!
# Rankings

A ranking puts the highest score first and keeps the order of items with equal scores. Between
scores in a linear order that says everything. A number that compares with nothing, not even with
itself, leaves the place of an item open; then the comparisons of a sort by runs decide.
-/

namespace ComplexityMeter.Score

variable {α : Type} [Scalar α]

/-- Highest score first; items of equal score keep their order. -/
def ranked {β : Type} (score : β → α) (items : List β) : List β :=
  if items.all fun a => decide (score a ≤ score a) then
    items.mergeSort fun a b => decide (score b ≤ score a)
  else (Runs.sort (fun a b => decide (score a < score b)) items.reverse).reverse

end ComplexityMeter.Score
