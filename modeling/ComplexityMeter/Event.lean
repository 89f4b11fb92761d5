import ComplexityMeter.Failure
import ComplexityMeter.Score.Visit

/-!
# Events

What an analysis notes while it runs, for those who follow it in detail: where the depth ceiling
cut a tree off, which imports were dropped or pruned, and the totals as they are reached.
-/

namespace ComplexityMeter

inductive Event (α : Type) where
  /-- The depth ceiling cut off a node of a file. -/
  | cutOff (limit : Int) (kind file : String) (line : Int)
  /-- A source has a syntax error. -/
  | refused (file reason : String)
  /-- A file was listed without content. -/
  | skipped (path : String)
  /-- An import names no analysed file. -/
  | unresolved (target path : String)
  /-- An import closes a cycle. -/
  | pruned (path target : String)
  /-- The depth ceiling of the module graph was reached. -/
  | moduleCutOff (path : String)
  /-- A module has its total. -/
  | aggregated (path : String) (total : α)
  /-- A source has its metrics. -/
  | measured (file : String) (total : α)

namespace Event

open Score

/-- The events of a scoring under a depth limit, read off its result: one for every node that was
cut off, in the order in which the nodes were met. -/
def ofResult {α : Type} [Scalar α] (limit : Int) (file : String) (r : Result α) :
    List (Event α) :=
  (r.preorder.filter Result.isTruncated).map fun cut =>
    .cutOff limit cut.kind file ((cut.lines.map LineRange.first).getD 1)

def ofFailure {α : Type} : Failure → List (Event α)
  | .parsing file _ reason => [.refused file reason]
  | _ => []

def text : Event Number → String
  | .cutOff limit kind file line =>
    "Depth limit " ++ toString limit ++ " reached at " ++ kind ++ " (" ++ file ++ ":"
      ++ toString line ++ ")"
  | .refused file reason => "Parse failure in " ++ file ++ ": " ++ reason
  | .skipped path => "Skipping " ++ path ++ ": no content"
  | .unresolved target path => "Dropping unresolved import " ++ target ++ " from " ++ path
  | .pruned path target => "Pruning cyclic edge " ++ path ++ " -> " ++ target
  | .moduleCutOff path => "Module depth limit reached at " ++ path
  | .aggregated path total => "Module " ++ path ++ ": aggregate complexity " ++ total.fixed 2
  | .measured file total => "Metrics for " ++ file ++ ": total " ++ total.fixed 2

/-- Whether an event can be put into words: a total that is shown needs a double. -/
def hasText : Event Number → Bool
  | .aggregated _ total | .measured _ total => total.double?.isSome
  | _ => true

def isUnresolved {α : Type} : Event α → Bool
  | .unresolved .. => true
  | _ => false

/-- The texts of events in order. Imports that were dropped one after the other have no order of
their own and are listed by their texts. -/
def texts (events : List (Event Number)) : List String :=
  (events.splitBy fun a b => a.isUnresolved == b.isUnresolved).flatMap fun run =>
    let lines := run.map text
    if run.any isUnresolved then lines.mergeSort fun a b => a ≤ b else lines

end Event

end ComplexityMeter
