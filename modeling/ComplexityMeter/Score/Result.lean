import ComplexityMeter.Value

/-!
# Scored nodes

The result of scoring a tree is a tree of its own: one entry per scored node, with the node's
score, the facts that its rule noted, and the results of the parts that were scored for it.
-/

namespace ComplexityMeter.Score

/-- First and last line, counted from one. -/
structure LineRange where
  first : Int
  last : Int
  deriving DecidableEq, Repr

/-- A scored node without its parts. -/
structure Entry (α : Type) where
  kind : String
  score : α
  lines : Option LineRange
  facts : Entries (Value α)

/-- A scored node. -/
structure Result (α : Type) where
  kind : String
  score : α
  lines : Option LineRange
  facts : Entries (Value α)
  parts : List (Result α)

namespace Result

variable {α : Type}

def entry (r : Result α) : Entry α :=
  ⟨r.kind, r.score, r.lines, r.facts⟩

def hasFact [Scalar α] (r : Result α) (name : String) : Bool :=
  ((r.facts.get? name).map Value.isTruthy).getD false

/-- The node was cut off at the depth ceiling. -/
def isTruncated [Scalar α] (r : Result α) : Bool :=
  r.hasFact "truncated"

/-- The node had been scored before, and got an estimate. -/
def isCircular [Scalar α] (r : Result α) : Bool :=
  r.hasFact "circular"

mutual

/-- The number of scored nodes of a tree. -/
def size : Result α → Nat
  | ⟨_, _, _, _, parts⟩ => sizeAll parts + 1

def sizeAll : List (Result α) → Nat
  | [] => 0
  | r :: rest => r.size + sizeAll rest

end

theorem size_eq (r : Result α) : r.size = sizeAll r.parts + 1 := by
  obtain ⟨_, _, _, _, _⟩ := r
  simp only [size]

@[simp] theorem sizeAll_append (a b : List (Result α)) :
    sizeAll (a ++ b) = sizeAll a + sizeAll b := by
  induction a with
  | nil => simp [sizeAll]
  | cons r rest ih => simp [sizeAll, ih, Nat.add_assoc]

def atDepth (depth : Nat) (rs : List (Result α)) : List (Result α × Nat) :=
  rs.map fun r => (r, depth)

@[simp] theorem map_fst_atDepth (depth : Nat) (rs : List (Result α)) :
    (atDepth depth rs).map Prod.fst = rs := by
  simp [atDepth, Function.comp_def]

/-- The nodes of some pending trees with their depths, each before what is below it. -/
def preorderPending : List (Result α × Nat) → List (Result α × Nat)
  | [] => []
  | (r, depth) :: rest => (r, depth) :: preorderPending (atDepth (depth + 1) r.parts ++ rest)
termination_by pending => sizeAll (pending.map Prod.fst)
decreasing_by
  have := r.size_eq
  simp only [List.map_append, map_fst_atDepth, List.map_cons, sizeAll, sizeAll_append]
  omega

/-- All nodes with their depths, each before its parts; the root has depth one. -/
def preorderDepths (r : Result α) : List (Result α × Nat) :=
  preorderPending [(r, 1)]

/-- All nodes, each before its parts. -/
def preorder (r : Result α) : List (Result α) :=
  r.preorderDepths.map Prod.fst

theorem preorder_eq_pending (r : Result α) :
    r.preorder = r :: (preorderPending (atDepth 2 r.parts)).map Prod.fst := by
  rw [preorder, preorderDepths, preorderPending, List.append_nil, List.map_cons]

/-- The nodes of pending trees do not depend on how deep they stand. -/
theorem map_fst_preorderPending : (pending : List (Result α × Nat)) →
    (preorderPending pending).map Prod.fst = (pending.map Prod.fst).flatMap preorder
  | [] => by simp [preorderPending]
  | (r, depth) :: rest => by
    have below := map_fst_preorderPending (atDepth (depth + 1) r.parts ++ rest)
    have parts := map_fst_preorderPending (atDepth 2 r.parts)
    rw [preorderPending, List.map_cons, List.map_cons, below, List.flatMap_cons,
      preorder_eq_pending, parts]
    simp
termination_by pending => sizeAll (pending.map Prod.fst)
decreasing_by
  all_goals
    have := r.size_eq
    simp only [List.map_append, map_fst_atDepth, List.map_cons, sizeAll, sizeAll_append]
    omega

theorem preorder_eq (r : Result α) : r.preorder = r :: r.parts.flatMap preorder := by
  rw [preorder_eq_pending, map_fst_preorderPending, map_fst_atDepth]

end Result

end ComplexityMeter.Score
