import ComplexityMeter.Score.Parts
import ComplexityMeter.Score.Result

/-!
# Scoring a tree

Scoring walks down from a node by the plans of the rules. Two guards bound it: below the depth
ceiling a node is cut off with the base score, and a node that was scored before gets an estimate.
The nodes scored so far are shared by all visits of one scoring, so the order of the visits
matters where two nodes have the same identity.
-/

namespace ComplexityMeter.Score

open Syntax (Node)

variable {α : Type} [Scalar α]

def resultOf (n : Node) (score : α) (parts : List (Result α)) (facts : Entries (Value α)) :
    Result α :=
  ⟨n.kind, score, some ⟨n.startLine, n.endLine⟩, facts, parts⟩

def truncated (n : Node) : Result α :=
  resultOf n 1.0 [] [truthFact "truncated" true]

def circular (n : Node) : Result α :=
  resultOf n (estimate n) [] [truthFact "circular" true, ("estimated_score", .number (estimate n))]

/-- The result of a node whose parts have been scored. -/
def composed (n : Node) : Plan α (Result α) → Result α
  | .recipe scored => resultOf n (scored.map Result.score).value scored.parts scored.facts
  | .inner result => result

/-- The identities of the nodes scored so far. -/
abbrev Visited := List Nat

/-- How deep scoring may go: to a level, or without limit. -/
inductive Ceiling where
  | level (bound : Int)
  | unlimited
  deriving DecidableEq, Repr

def Ceiling.isReached (depth : Int) : Ceiling → Bool
  | .level bound => bound ≤ depth
  | .unlimited => false

/-- The state of one scoring: what it may do, where it stands and what it has scored. -/
structure Context where
  filename : String
  ceiling : Ceiling
  depth : Int
  visited : Visited

namespace Context

def unnamed : String := "<source>"

def start (filename : String) (ceiling : Ceiling) : Context :=
  ⟨filename, ceiling, 0, []⟩

/-- Nothing is scored where the scoring stands. -/
def isCutOff (c : Context) : Bool :=
  c.ceiling.isReached c.depth

/-- Goes one level down, to what is below a node that counts as scored from now on. -/
def enter (n : Node) (c : Context) : Context :=
  { c with depth := c.depth + 1, visited := n.identity :: c.visited }

/-- Comes back from what is below a node. -/
def leave (c : Context) : Context :=
  { c with depth := c.depth - 1 }

end Context

def visit (n : Node) : StateM Context (Result α) := do
  let c ← get
  if c.isCutOff then
    return truncated n
  if n.identity ∈ c.visited then
    return circular n
  modify (Context.enter n)
  let scored ← ((plan n).attachWith (·.size < n.size) fun _ => size_lt_of_mem_plan).mapM
    fun part => visit part.1
  modify Context.leave
  return composed n scored
termination_by n.size
decreasing_by exact part.2

theorem visit_eq (n : Node) : visit (α := α) n = do
    let c ← get
    if c.isCutOff then
      return truncated n
    if n.identity ∈ c.visited then
      return circular n
    modify (Context.enter n)
    let scored ← (plan n).mapM visit
    modify Context.leave
    return composed n scored := by
  rw [visit]
  simp only [Plan.mapM_attachWith]

namespace Context

def score (c : Context) (n : Node) : Result α × Context :=
  (visit n).run c

/-- Scores the parts of a node, one level below it. -/
def scoreParts (c : Context) (n : Node) : Plan α (Result α) × Context :=
  ((plan n).mapM visit).run (c.enter n)

theorem score_of_cutOff {c : Context} {n : Node} (h : c.isCutOff = true) :
    c.score (α := α) n = (truncated n, c) := by
  rw [score, visit_eq]
  simp [h]
  rfl

theorem score_of_visited {c : Context} {n : Node} (within : c.isCutOff = false)
    (h : n.identity ∈ c.visited) : c.score (α := α) n = (circular n, c) := by
  rw [score, visit_eq]
  simp [within, h]
  rfl

theorem score_of_new {c : Context} {n : Node} (within : c.isCutOff = false)
    (h : n.identity ∉ c.visited) :
    c.score (α := α) n =
      (composed n (c.scoreParts n).1, (c.scoreParts (α := α) n).2.leave) := by
  rw [score, visit_eq]
  simp [within, h]
  rfl

end Context

def scoreAlone (ceiling : Ceiling) (n : Node) : Result α :=
  ((Context.start Context.unnamed ceiling).score n).1

end ComplexityMeter.Score
