import Mathlib.Algebra.BigOperators.Ring.List
import Mathlib.Data.List.Basic
import Mathlib.Data.List.Chain
import Mathlib.Tactic.Ring
import ComplexityMeter.Proofs.Syntax.View

/-!
# Walks by recursion

A walk goes over the nodes that are pending one after the other, so the walk of a node is the node
and then the walks of its children. Recursion can carry along what stands above each node: its
lineage. To count the marked nodes below every scope and to count the scopes above every marked node
is the same.
-/

namespace ComplexityMeter.Syntax.Node

theorem walkPending_append (pending others : List Node) :
    walkPending (pending ++ others) = walkPending pending ++ walkPending others := by
  fun_induction walkPending pending with
  | case1 => rw [List.nil_append, List.nil_append]
  | case2 n rest ih =>
    rw [List.cons_append, walkPending, List.cons_append, ← List.append_assoc, ih]

theorem walkPending_eq (pending : List Node) : walkPending pending = pending.flatMap walk := by
  induction pending with
  | nil => rw [walkPending, List.flatMap_nil]
  | cons n rest ih =>
    rw [← List.singleton_append, walkPending_append, ih, List.singleton_append, List.flatMap_cons]
    rfl

/-- The walk of a node: the node and then the walks of its children, from the first to the last. -/
theorem walk_eq (n : Node) : n.walk = n :: n.children.flatMap walk := by
  rw [walk, walkPending, List.append_nil, walkPending_eq]

theorem mem_walk_self (n : Node) : n ∈ n.walk := by
  rw [walk_eq]
  exact List.mem_cons_self

/-- What holds of a node as soon as it holds of its children holds of every node. -/
@[elab_as_elim]
theorem children_induction {motive : Node → Prop}
    (step : ∀ n, (∀ c ∈ n.children, motive c) → motive n) (n : Node) : motive n := by
  induction n using branches_induction with
  | step n ih => exact step n fun c hc => ih c (List.mem_of_mem_filter hc)

/-- The walk of a walked node is part of the walk. -/
theorem walk_subset_walk {n m : Node} (h : m ∈ n.walk) : m.walk ⊆ n.walk := by
  induction n using children_induction with
  | step n ih =>
    rw [walk_eq] at h
    rcases List.mem_cons.1 h with rfl | h
    · exact List.Subset.refl _
    · obtain ⟨c, hc, h⟩ := List.mem_flatMap.1 h
      intro o ho
      rw [walk_eq n]
      exact List.mem_cons_of_mem n (List.mem_flatMap.2 ⟨c, hc, ih c hc h ho⟩)

theorem mem_walk_of_mem_children {n m c : Node} (hm : m ∈ n.walk) (hc : c ∈ m.children) :
    c ∈ n.walk := by
  refine walk_subset_walk hm ?_
  rw [walk_eq]
  exact List.mem_cons_of_mem m (List.mem_flatMap.2 ⟨c, hc, c.mem_walk_self⟩)

/-! ### What stands above the nodes of a walk -/

mutual

/-- The nodes of a walk, each with the nodes above it, the nearest first. Above the root stand the
given ones. -/
def lineage (above : List Node) : Node → List (Node × List Node)
  | ⟨kind, isNamed, isMissing, hasError, field, text, startRow, endRow, identity, branches⟩ =>
    let n : Node :=
      ⟨kind, isNamed, isMissing, hasError, field, text, startRow, endRow, identity, branches⟩
    (n, above) :: lineageAll (n :: above) branches

def lineageAll (above : List Node) : List Node → List (Node × List Node)
  | [] => []
  | c :: rest =>
    if c.isVisible then lineage above c ++ lineageAll above rest else lineageAll above rest

end

theorem lineageAll_eq (above ns : List Node) :
    lineageAll above ns = (ns.filter isVisible).flatMap (lineage above) := by
  induction ns with
  | nil => rfl
  | cons c rest ih =>
    rw [lineageAll, ih]
    cases visible : c.isVisible <;> simp [visible]

theorem lineage_eq (above : List Node) (n : Node) :
    n.lineage above = (n, above) :: n.children.flatMap (lineage (n :: above)) := by
  obtain ⟨_, _, _, _, _, _, _, _, _, _⟩ := n
  rw [lineage, lineageAll_eq]
  rfl

/-- The nodes of a lineage are those of the walk, in the same order. -/
theorem map_fst_lineage (above : List Node) (n : Node) :
    (n.lineage above).map Prod.fst = n.walk := by
  induction n using children_induction generalizing above with
  | step n ih =>
    rw [lineage_eq, walk_eq, List.map_cons, List.map_flatMap]
    exact congrArg (n :: ·) (List.flatMap_congr fun c hc => ih c hc (n :: above))

/-- What stands above a node of a walk leads from it up to the root: each node is a child of the
next one. -/
structure LeadsTo (root m : Node) (above : List Node) : Prop where
  isChain : (m :: above).IsChain fun c p => c ∈ p.children
  getLast?_eq : (m :: above).getLast? = some root

theorem leadsTo_of_mem_lineage {root n : Node} {above : List Node} (leads : LeadsTo root n above)
    {e : Node × List Node} (he : e ∈ n.lineage above) : LeadsTo root e.1 e.2 := by
  induction n using children_induction generalizing above with
  | step n ih =>
    rw [lineage_eq] at he
    rcases List.mem_cons.1 he with rfl | he
    · exact leads
    · obtain ⟨c, hc, he⟩ := List.mem_flatMap.1 he
      refine ih c hc ⟨.cons_cons hc leads.isChain, ?_⟩ he
      rw [List.getLast?_cons_cons, leads.getLast?_eq]

/-- All that stands above a node has the node in its walk. -/
theorem LeadsTo.mem_walk {root m : Node} {above : List Node} (h : LeadsTo root m above) :
    ∀ a ∈ above, m ∈ a.walk := by
  induction above generalizing m with
  | nil => simp
  | cons p rest ih =>
    obtain ⟨child, chain⟩ := List.isChain_cons_cons.1 h.isChain
    have parent : LeadsTo root p rest := ⟨chain, by simpa using h.getLast?_eq⟩
    intro a ha
    rcases List.mem_cons.1 ha with rfl | ha
    · exact mem_walk_of_mem_children a.mem_walk_self child
    · exact mem_walk_of_mem_children (ih parent a ha) child

/-- What walked nodes give for their children is given by every walked node for itself, out of the
node right above it. -/
theorem flatMap_lineage_perm {β : Type} (f : Node → Node → List β) (above : List Node) (n : Node) :
    ((n.lineage above).flatMap fun e => e.2.head?.toList.flatMap fun p => f p e.1).Perm
      (above.head?.toList.flatMap (fun p => f p n)
        ++ n.walk.flatMap fun m => m.children.flatMap (f m)) := by
  induction n using children_induction generalizing above with
  | step n ih =>
    have below : (n.children.flatMap fun c =>
          (c.lineage (n :: above)).flatMap fun e => e.2.head?.toList.flatMap fun p => f p e.1).Perm
        (n.children.flatMap fun c =>
          f n c ++ c.walk.flatMap fun m => m.children.flatMap (f m)) :=
      List.Perm.flatMap_left _ fun c hc => by simpa using ih c hc (n :: above)
    rw [lineage_eq, walk_eq, List.flatMap_cons, List.flatMap_cons, List.flatMap_assoc,
      List.flatMap_assoc]
    exact (below.trans (List.flatMap_append_perm _ _ _).symm).append_left _

/-! ### Counting along walks -/

theorem sum_walk {M : Type} [AddMonoid M] (f : Node → M) (n : Node) :
    (n.walk.map f).sum = f n + (n.children.map fun c => (c.walk.map f).sum).sum := by
  rw [walk_eq, List.map_cons, List.sum_cons, List.map_flatMap, List.flatMap_def, List.sum_flatten,
    List.map_map]
  rfl

theorem countP_walk (q : Node → Bool) (n : Node) :
    n.walk.countP q = (n.children.map fun c => c.walk.countP q).sum + if q n then 1 else 0 := by
  rw [walk_eq, List.countP_cons, List.countP_flatMap]
  rfl

/-- Count at every node with the first property the nodes of its walk with the second one, or at
every node with the second property the nodes from it upwards with the first one: the counts add up
to the same, where no node below is left out and no node above belongs to the tree. -/
theorem sum_countP_walk (p q : Node → Bool) (above : List Node) (n : Node) :
    (n.walk.map fun m => if p m then m.walk.countP q else 0).sum + above.countP p * n.walk.countP q
      = ((n.lineage above).map fun e => if q e.1 then (e.1 :: e.2).countP p else 0).sum := by
  induction n using children_induction generalizing above with
  | step n ih =>
    have below : ((n.children.flatMap (lineage (n :: above))).map
          fun e => if q e.1 then (e.1 :: e.2).countP p else 0).sum
        = (n.children.map fun c => (c.walk.map fun m => if p m then m.walk.countP q else 0).sum).sum
          + (n :: above).countP p * (n.children.map fun c => c.walk.countP q).sum := by
      rw [← List.sum_map_mul_left, ← List.sum_map_add, List.map_flatMap, List.flatMap_def,
        List.sum_flatten, List.map_map]
      exact congrArg List.sum (List.map_congr_left fun c hc => (ih c hc (n :: above)).symm)
    rw [lineage_eq, List.map_cons, List.sum_cons, below, sum_walk, countP_walk]
    cases hp : p n <;> cases hq : q n <;> simp [hp] <;> ring

end ComplexityMeter.Syntax.Node
