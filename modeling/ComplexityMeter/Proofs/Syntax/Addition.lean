import Mathlib.Data.List.Nodup
import Mathlib.Tactic.Ring
import ComplexityMeter.Proofs.Syntax.View
import ComplexityMeter.Syntax.Tree

/-!
# Trees with an added node

A node without a grammar field is appended as the last one below the node of a given identity. The
view of a tree keeps every answer: fields, tokens and children are those of the old tree, each with
the addition made below it, and only the children of the place of the addition are one more.
-/

namespace ComplexityMeter.Syntax

/-- A visible node without a grammar field, and the identity of the node below which it is
appended. -/
structure Addition where
  place : Nat
  node : Node
  isVisible : node.isVisible = true
  field_eq : node.field = none

namespace Addition

mutual

/-- The tree with the addition. -/
def apply (a : Addition) : Node → Node
  | ⟨kind, isNamed, isMissing, hasError, field, text, startRow, endRow, identity, branches⟩ =>
    ⟨kind, isNamed, isMissing, hasError, field, text, startRow, endRow, identity,
      a.applyAll branches ++ if identity = a.place then [a.node] else []⟩

def applyAll (a : Addition) : List Node → List Node
  | [] => []
  | n :: rest => a.apply n :: a.applyAll rest

end

def applyTree (a : Addition) (t : Tree) : Tree :=
  { t with root := a.apply t.root }

variable (a : Addition) (n : Node)

@[simp] theorem root_applyTree (t : Tree) : (a.applyTree t).root = a.apply t.root := rfl

/-- What is added directly below a node. -/
def addedBelow : List Node :=
  if n.identity = a.place then [a.node] else []

theorem applyAll_eq_map (ns : List Node) : a.applyAll ns = ns.map a.apply := by
  induction ns with
  | nil => rfl
  | cons n rest ih => rw [applyAll, ih, List.map_cons]

theorem apply_eq : a.apply n = { n with branches := n.branches.map a.apply ++ a.addedBelow n } := by
  obtain ⟨_, _, _, _, _, _, _, _, _, _⟩ := n
  rw [apply, applyAll_eq_map]
  rfl

theorem branches_apply : (a.apply n).branches = n.branches.map a.apply ++ a.addedBelow n := by
  rw [apply_eq]

@[simp] theorem kind_apply : (a.apply n).kind = n.kind := by
  rw [apply_eq]

@[simp] theorem field_apply : (a.apply n).field = n.field := by
  rw [apply_eq]

@[simp] theorem identity_apply : (a.apply n).identity = n.identity := by
  rw [apply_eq]

@[simp] theorem isComment_apply : (a.apply n).isComment = n.isComment := by
  rw [apply_eq]
  rfl

@[simp] theorem isVisible_apply : (a.apply n).isVisible = n.isVisible := by
  rw [apply_eq]
  rfl

/-! ### The view of the new tree -/

@[simp] theorem fieldBranch?_apply (name : String) :
    (a.apply n).fieldBranch? name = (n.fieldBranch? name).map a.apply := by
  have added : (a.addedBelow n).find? (fun c => c.field = some name) = none := by
    rw [addedBelow]
    split <;> simp [a.field_eq]
  have kept : (fun c => decide (c.field = some name)) ∘ a.apply
      = fun c => decide (c.field = some name) := by
    funext c
    simp
  rw [Node.fieldBranch?, branches_apply, List.find?_append, added, Option.or_none, List.find?_map,
    kept, Node.fieldBranch?]

@[simp] theorem child?_apply (name : String) :
    (a.apply n).child? name = (n.child? name).map a.apply := by
  rw [Node.child?, Node.child?, fieldBranch?_apply, Option.filter_map]
  simp [Function.comp_def]

@[simp] theorem fields_apply (name : String) :
    (a.apply n).fields name = (n.fields name).map a.apply := by
  have added : (a.addedBelow n).filter (fun c => c.field = some name && c.isVisible) = [] := by
    rw [addedBelow]
    split <;> simp [a.field_eq]
  rw [Node.fields, branches_apply, List.filter_append, added, List.append_nil, List.filter_map]
  simp [Node.fields, Function.comp_def]

@[simp] theorem token?_apply (name : String) : (a.apply n).token? name = n.token? name := by
  rw [Node.token?, Node.token?, fieldBranch?_apply, Option.map_map]
  congr 1
  funext c
  exact kind_apply a c

theorem shows_apply : n.Shows a.apply where
  own_eq := ⟨_, a.apply_eq n⟩
  child?_eq := a.child?_apply n
  fields_eq := a.fields_apply n
  token?_eq := a.token?_apply n

theorem children_apply : (a.apply n).children = n.children.map a.apply ++ a.addedBelow n := by
  have added : (a.addedBelow n).filter Node.isVisible = a.addedBelow n := by
    rw [addedBelow]
    split <;> simp [a.isVisible]
  rw [Node.children, branches_apply, List.filter_append, added, List.filter_map]
  simp [Node.children, Function.comp_def]

section

variable {n} (elsewhere : n.identity ≠ a.place)
include elsewhere

theorem children_of_elsewhere : (a.apply n).children = n.children.map a.apply := by
  rw [children_apply, addedBelow, if_neg elsewhere, List.append_nil]

theorem branches_of_elsewhere : (a.apply n).branches = n.branches.map a.apply := by
  rw [branches_apply, addedBelow, if_neg elsewhere, List.append_nil]

/-- Where nothing is added, the view shows the same as before. -/
theorem reads_apply : n.Reads a.apply where
  toShows := a.shows_apply n
  children_eq := a.children_of_elsewhere elsewhere
  firstToken?_eq _ := by
    rw [Node.firstToken?, branches_of_elsewhere a elsewhere, Node.firstToken?]
    cases n.branches <;> simp
  hasOf_eq := by
    rw [Node.hasToken, branches_of_elsewhere a elsewhere, List.any_map]
    simp [Node.hasToken, Function.comp_def]

end

/-! ### Its nodes -/

mutual

theorem apply_eq_self : (n : Node) → (∀ m ∈ n.nodes, m.identity ≠ a.place) → a.apply n = n
  | ⟨kind, isNamed, isMissing, hasError, field, text, startRow, endRow, identity, branches⟩, h => by
    simp only [Node.nodes, List.forall_mem_cons] at h
    rw [apply, applyAll_eq_self branches h.2, if_neg h.1, List.append_nil]

theorem applyAll_eq_self :
    (ns : List Node) → (∀ m ∈ Node.nodesAll ns, m.identity ≠ a.place) → a.applyAll ns = ns
  | [], _ => rfl
  | n :: rest, h => by
    rw [Node.nodesAll, List.forall_mem_append] at h
    rw [applyAll, apply_eq_self n h.1, applyAll_eq_self rest h.2]

end

/-- How often an identity occurs in trees. -/
def occurrences (i : Nat) (ns : List Node) : Nat :=
  ((Node.nodesAll ns).map Node.identity).count i

theorem occurrences_append (i : Nat) (ms ns : List Node) :
    occurrences i (ms ++ ns) = occurrences i ms + occurrences i ns := by
  simp [occurrences]

theorem occurrences_cons (i : Nat) (n : Node) (ns : List Node) :
    occurrences i (n :: ns) = occurrences i [n] + occurrences i ns :=
  occurrences_append i [n] ns

theorem occurrences_singleton (i : Nat) (n : Node) :
    occurrences i [n] = occurrences i n.branches + if n.identity = i then 1 else 0 := by
  simp [occurrences, n.nodes_eq, List.count_cons]

mutual

/-- The addition is made once for every node at its place. -/
theorem occurrences_apply (i : Nat) : (n : Node) →
    occurrences i [a.apply n]
      = occurrences i [n] + occurrences a.place [n] * occurrences i [a.node]
  | ⟨kind, isNamed, isMissing, hasError, field, text, startRow, endRow, identity, branches⟩ => by
    have below := occurrences_applyAll i branches
    rw [apply]
    by_cases here : identity = a.place
    · rw [if_pos here, occurrences_singleton, occurrences_append, below]
      generalize occurrences i [a.node] = added
      rw [occurrences_singleton i, occurrences_singleton a.place, if_pos here]
      ring
    · rw [if_neg here, List.append_nil, occurrences_singleton, below]
      generalize occurrences i [a.node] = added
      rw [occurrences_singleton i, occurrences_singleton a.place, if_neg here]
      ring

theorem occurrences_applyAll (i : Nat) : (ns : List Node) →
    occurrences i (a.applyAll ns)
      = occurrences i ns + occurrences a.place ns * occurrences i [a.node]
  | [] => by simp [applyAll, occurrences, Node.nodesAll]
  | n :: rest => by
    have first := occurrences_apply i n
    have others := occurrences_applyAll i rest
    rw [applyAll, occurrences_cons, first, others, occurrences_cons i n rest,
      occurrences_cons a.place n rest]
    ring

end

theorem distinct_apply {n : Node}
    (distinct : ((n.nodes ++ a.node.nodes).map Node.identity).Nodup) :
    ((a.apply n).nodes.map Node.identity).Nodup := by
  rw [List.map_append] at distinct
  have once : (n.nodes.map Node.identity).count a.place ≤ 1 :=
    List.nodup_iff_count_le_one.1 (List.nodup_append.1 distinct).1 a.place
  refine List.nodup_iff_count_le_one.2 fun i => ?_
  have all := List.nodup_iff_count_le_one.1 distinct i
  have grown := occurrences_apply a i n
  simp only [occurrences, Node.nodesAll_singleton] at grown
  rw [List.count_append] at all
  have added := Nat.mul_le_mul_right ((a.node.nodes.map Node.identity).count i) once
  omega

end Addition

end ComplexityMeter.Syntax
