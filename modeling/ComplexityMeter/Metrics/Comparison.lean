import ComplexityMeter.Event
import ComplexityMeter.Metrics.Snippet
import ComplexityMeter.Settings

/-!
# Comparison of snippets

Metrics are reduced to one number by weighing the categories; of two snippets the one with the
lower number is the simpler one. Each snippet is measured on its own.
-/

namespace ComplexityMeter.Metrics

open Syntax (Parser Tree Node)

variable {α : Type} [Scalar α]

/-- The weighted sum of the categories, in reporting order. -/
def scalar (weights : Weights α) (m : Record α) : α :=
  Scalar.sum (Category.all.map fun c => m.score c * weights c)

/-- A category with its score, plain and weighted. -/
structure BreakdownLine (α : Type) where
  category : Category
  value : α
  weighted : α

def breakdown (weights : Weights α) (m : Record α) : List (BreakdownLine α) :=
  Category.all.map fun c => ⟨c, m.score c, m.score c * weights c⟩

/-- Which of two snippets is simpler. -/
inductive Verdict where
  | first
  | second
  | neither
  deriving DecidableEq, Repr

namespace Verdict

def flipped : Verdict → Verdict
  | .first => .second
  | .second => .first
  | .neither => .neither

/-- The lower number wins. -/
def ofScalars (a b : α) : Verdict :=
  if a < b then .first
  else if b < a then .second
  else .neither

end Verdict

structure Comparison (α : Type) where
  first : Record α
  second : Record α
  firstScalar : α
  secondScalar : α
  verdict : Verdict

def compare (weights : Weights α) (a b : Record α) : Comparison α :=
  { first := a
    second := b
    firstScalar := scalar weights a
    secondScalar := scalar weights b
    verdict := Verdict.ofScalars (scalar weights a) (scalar weights b) }

def measureTree (settings : Settings α) (t : Tree) : Record α :=
  measure settings.ceiling settings.leastHotspot t

def measureCode (parser : Parser) (settings : Settings α) (language filename code : String) :
    Except Failure (Record α) :=
  (Tree.parseNamed parser language filename code).map (measureTree settings)

def compareCode (parser : Parser) (settings : Settings α) (weights : Weights α)
    (a b : String) : Except Failure (Comparison α) := do
  let first ← measureCode parser settings settings.language.name Score.Context.unnamed a
  let second ← measureCode parser settings settings.language.name Score.Context.unnamed b
  return compare weights first second

def treeEvents (settings : Settings α) (t : Tree) : List (Event α) :=
  let cs : List (Charge α) := charges settings.ceiling t.root
  (cs.flatMap fun c => c.scored.flatMap (Event.ofResult settings.depthLimit t.filename))
    ++ [.measured t.filename (measureTree settings t).total]

def codeEvents (parser : Parser) (settings : Settings α) (language filename code : String) :
    List (Event α) :=
  match Tree.parseNamed parser language filename code with
  | .ok t => treeEvents settings t
  | .error failure => Event.ofFailure failure

/-- The events of a comparison; a source after a refused one is not looked at. -/
def comparisonEvents (parser : Parser) (settings : Settings α) (a b : String) :
    List (Event α) :=
  let events := codeEvents parser settings settings.language.name Score.Context.unnamed
  match Tree.parseNamed parser settings.language.name Score.Context.unnamed a with
  | .ok _ => events a ++ events b
  | .error _ => events a

end ComplexityMeter.Metrics
