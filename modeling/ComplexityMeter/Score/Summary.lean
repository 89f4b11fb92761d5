import ComplexityMeter.Failure
import ComplexityMeter.Score.Ranking
import ComplexityMeter.Score.Result

/-!
# Statistics of a result tree

The nodes of a result tree as a list, the nodes that reach a threshold, and a summary: size,
height, mean, median, ninetieth percentile and the entries with the highest scores. Rankings are
stable: nodes of equal score stay in the order of the tree.
-/

namespace ComplexityMeter.Score

variable {α : Type} [Scalar α]

/-- The entries of all nodes, each before its parts. -/
def flatten (r : Result α) : List (Entry α) :=
  r.preorder.map Result.entry

/-- The nodes that reach a threshold, highest score first. -/
def hotspots (threshold : α) (r : Result α) : List (Result α) :=
  ranked Result.score (r.preorder.filter fun node => decide (threshold ≤ node.score))

def hotspotsFor (threshold : Datum) (r : Result Number) : Except Misuse (List (Result Number)) :=
  match threshold.number? with
  | some least => .ok (hotspots least r)
  | none => .error (.unordered ">=" (Value.number r.score).kindName threshold.kindName)

/-- The first items, or all but the last ones for a negative count. -/
def takeUpTo {β : Type} (count : Int) (items : List β) : List β :=
  match count with
  | .ofNat n => items.take n
  | .negSucc n => items.take (items.length - (n + 1))

/-- The middle value of sorted values, or the mean of the two middle ones. -/
def median (sorted : List α) : Option α :=
  let n := sorted.length
  if n % 2 = 1 then sorted[n / 2]?
  else
    match sorted[n / 2 - 1]?, sorted[n / 2]? with
    | some a, some b => some ((a + b) / 2.0)
    | _, _ => none

/-- The value at a fraction of the way through sorted values, by linear interpolation between
neighbours. In the second half of an interval the distance is measured from the upper one. -/
def quantile (fraction : α) (sorted : List α) : Option α :=
  let place := fraction * ((sorted.length - 1 : Nat) : α)
  let below := (Scalar.floor place).toNat
  match sorted[below]? with
  | none => none
  | some a =>
    let b := (sorted[below + 1]?).getD a
    let t := place - ((below : Nat) : α)
    if (0.5 : α) ≤ t then some (b - (b - a) * (1.0 - t)) else some (a + (b - a) * t)

/-- A number that compares with nothing. One is enough to leave no place for a median. -/
def incomparable? (xs : List α) : Option α :=
  xs.find? fun x => !decide (x ≤ x)

/-- Statistics of a result tree. -/
structure Summary (α : Type) where
  total : α
  nodeCount : Nat
  height : Nat
  average : α
  median : α
  ninetieth : α
  top : List (Entry α)

/-- Scores as fractional numbers, lowest first. -/
def sortedScores (entries : List (Entry α)) : List α :=
  (entries.map fun e => (1.0 : α) * e.score).mergeSort fun a b => decide (a ≤ b)

/-- The summary of a result tree with the given number of top entries. -/
def summarize (topCount : Int) (r : Result α) : Summary α :=
  let entries := flatten r
  let sorted := sortedScores entries
  { total := r.score
    nodeCount := entries.length
    height := (r.preorderDepths.map Prod.snd).foldl max 0
    average := r.score / (entries.length : α)
    median := ((incomparable? sorted).or (median sorted)).getD 0.0
    ninetieth := ((incomparable? sorted).or (quantile 0.9 sorted)).getD 0.0
    top := takeUpTo topCount (ranked Entry.score entries) }

/-- The summary of a result with scores of any size. Median and percentile need their doubles; the
count of top entries is looked at last. -/
def boundedSummary (topCount : Except Misuse Int) (r : Result Number) :
    Except Failure (Summary Number) := do
  Failure.checkDoubles ((flatten r).map Entry.score)
  return summarize (← topCount.mapError Failure.misuse) r

end ComplexityMeter.Score
