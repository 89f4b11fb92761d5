import ComplexityMeter.Proofs.Syntax.View
import ComplexityMeter.Syntax.Tree

/-!
# Trees without comments

Comments can be taken out of a tree. The view shows the same of what is left as long as comments
stand aside: none is held under a grammar field, where it would hide the field, and none comes first
where the first token decides something.
-/

namespace ComplexityMeter.Syntax

namespace Node

mutual

/-- The tree without the comments below its root. -/
def strip : Node → Node
  | ⟨kind, isNamed, isMissing, hasError, field, text, startRow, endRow, identity, branches⟩ =>
    ⟨kind, isNamed, isMissing, hasError, field, text, startRow, endRow, identity,
      stripAll branches⟩

/-- Trees without comments. -/
def stripAll : List Node → List Node
  | [] => []
  | n :: rest => if n.isComment then stripAll rest else n.strip :: stripAll rest

end

theorem stripAll_eq (ns : List Node) :
    stripAll ns = (ns.filter fun n => !n.isComment).map strip := by
  induction ns with
  | nil => rfl
  | cons n rest ih =>
    rw [stripAll, ih]
    cases comment : n.isComment <;> simp [comment]

theorem strip_eq (n : Node) :
    n.strip = { n with branches := (n.branches.filter fun c => !c.isComment).map strip } := by
  obtain ⟨_, _, _, _, _, _, _, _, _, _⟩ := n
  rw [strip, stripAll_eq]

theorem branches_strip (n : Node) :
    n.strip.branches = (n.branches.filter fun c => !c.isComment).map strip := by
  rw [strip_eq]

@[simp] theorem kind_strip (n : Node) : n.strip.kind = n.kind := by
  rw [strip_eq]

@[simp] theorem field_strip (n : Node) : n.strip.field = n.field := by
  rw [strip_eq]

@[simp] theorem isComment_strip (n : Node) : n.strip.isComment = n.isComment := by
  rw [strip_eq]
  rfl

@[simp] theorem isVisible_strip (n : Node) : n.strip.isVisible = n.isVisible := by
  rw [strip_eq]
  rfl

mutual

/-- What is below the root of a stripped tree holds no comment. -/
theorem isComment_of_mem_strip {m : Node} :
    (n : Node) → m ∈ nodesAll n.strip.branches → m.isComment = false
  | ⟨kind, isNamed, isMissing, hasError, field, text, startRow, endRow, identity, branches⟩, hm => by
    rw [strip] at hm
    exact isComment_of_mem_stripAll branches hm

theorem isComment_of_mem_stripAll {m : Node} :
    (ns : List Node) → m ∈ nodesAll (stripAll ns) → m.isComment = false
  | [], hm => nomatch hm
  | n :: rest, hm => by
    rw [stripAll] at hm
    cases comment : n.isComment with
    | true =>
      rw [comment, if_pos rfl] at hm
      exact isComment_of_mem_stripAll rest hm
    | false =>
      rw [comment, if_neg Bool.false_ne_true, nodesAll, List.mem_append, nodes_eq,
        List.mem_cons] at hm
      rcases hm with (rfl | hm) | hm
      · rw [isComment_strip, comment]
      · exact isComment_of_mem_strip n hm
      · exact isComment_of_mem_stripAll rest hm

end

/-- The comments of a tree stand aside. -/
structure Aside (n : Node) : Prop where
  /-- No comment is held under a grammar field. -/
  unheld : ∀ m ∈ n.nodes, m.isComment = true → m.field = none
  /-- No comment comes first where the first token decides something. -/
  notFirst : ∀ m ∈ n.nodes, readsFirst m.kind → ∀ c ∈ m.branches.head?, c.isComment = false

theorem Aside.of_mem {n m : Node} (h : n.Aside) (hm : m ∈ n.nodes) : m.Aside where
  unheld o ho := h.unheld o (mem_nodes_trans hm ho)
  notFirst o ho := h.notFirst o (mem_nodes_trans hm ho)

/-! ### The view of a stripped tree -/

theorem filter_branches_strip {n : Node} {p : Node → Bool} (kept : ∀ c, p c.strip = p c)
    (other : ∀ c ∈ n.branches, p c = true → c.isComment = false) :
    n.strip.branches.filter p = (n.branches.filter p).map strip := by
  rw [branches_strip, List.filter_map, List.filter_filter]
  refine congrArg (List.map strip) (List.filter_congr fun c hc => ?_)
  rw [Function.comp_apply, kept]
  cases holds : p c with
  | false => rfl
  | true => rw [other c hc holds]; rfl

theorem fieldBranch?_strip {n : Node} (aside : n.Aside) (name : String) :
    n.strip.fieldBranch? name = (n.fieldBranch? name).map strip := by
  have held : n.strip.branches.filter (fun c => c.field = some name)
      = (n.branches.filter fun c => c.field = some name).map strip := by
    refine filter_branches_strip (fun c => by rw [field_strip]) fun c hc under => ?_
    cases comment : c.isComment with
    | false => rfl
    | true =>
      have none := aside.unheld c (mem_nodes_of_mem_branches hc) comment
      simp [none] at under
  rw [fieldBranch?, ← List.head?_filter, held, List.head?_map, List.head?_filter, fieldBranch?]

/-- Nothing that the view shows of a tree changes when its comments, which stand aside, are taken
out. -/
theorem reads_strip {n : Node} (aside : n.Aside) : n.Reads strip where
  own_eq := ⟨_, n.strip_eq⟩
  child?_eq name := by
    rw [child?, fieldBranch?_strip aside, Option.filter_map, child?]
    simp [Function.comp_def]
  fields_eq name := by
    refine filter_branches_strip (fun c => by rw [field_strip, isVisible_strip]) fun c _ shown => ?_
    simp_all [isVisible]
  token?_eq name := by
    rw [token?, fieldBranch?_strip aside, Option.map_map, token?]
    simp [Function.comp_def]
  children_eq := by
    refine filter_branches_strip isVisible_strip fun c _ shown => ?_
    simp_all [isVisible]
  firstToken?_eq first := by
    have other := aside.notFirst n n.mem_nodes_self first
    rw [firstToken?, branches_strip, firstToken?]
    cases branches : n.branches with
    | nil => rfl
    | cons c rest => simp [other c (by rw [branches]; rfl)]
  hasOf_eq := by
    have token (c : Node) :
        (!c.isComment && decide (c.strip.kind = "of")) = decide (c.kind = "of") := by
      by_cases of : c.kind = "of" <;> simp [isComment, of]
    simp only [hasToken, branches_strip, List.any_map, List.any_filter, Function.comp_apply, token]

end Node

/-- A parsed source without comments. -/
def Tree.strip (t : Tree) : Tree :=
  { t with root := t.root.strip }

end ComplexityMeter.Syntax
