import ComplexityMeter.Syntax.Subtree

/-!
# Maps of trees under the view

A map of trees may change what stands directly below a node, but nothing else about it. Readers
that see a tree through the view alone get answers about the new tree from answers about the old
one when the map keeps what the view shows at every node.
-/

namespace ComplexityMeter.Syntax.Node

variable {f : Node → Node} {n m : Node}

/-- The view shows the same under the fields of a node and of its image, up to the map. -/
structure Shows (f : Node → Node) (n : Node) : Prop where
  /-- The map changes nothing but what is below. -/
  own_eq : ∃ branches, f n = { n with branches }
  child?_eq : ∀ name, (f n).child? name = (n.child? name).map f
  fields_eq : ∀ name, (f n).fields name = (n.fields name).map f
  token?_eq : ∀ name, (f n).token? name = n.token? name

namespace Shows

variable (h : Shows f n)
include h

theorem kind_eq : (f n).kind = n.kind := by
  obtain ⟨branches, own⟩ := h.own_eq
  rw [own]

theorem text_eq : (f n).text = n.text := by
  obtain ⟨branches, own⟩ := h.own_eq
  rw [own]

theorem identity_eq : (f n).identity = n.identity := by
  obtain ⟨branches, own⟩ := h.own_eq
  rw [own]

theorem startLine_eq : (f n).startLine = n.startLine := by
  obtain ⟨branches, own⟩ := h.own_eq
  rw [own]
  rfl

theorem endLine_eq : (f n).endLine = n.endLine := by
  obtain ⟨branches, own⟩ := h.own_eq
  rw [own]
  rfl

end Shows

/-- The kinds of nodes whose first token decides something. -/
def readsFirst (kind : String) : Prop :=
  kind = "update_expression" ∨ kind = "lexical_declaration"

instance (kind : String) : Decidable (readsFirst kind) :=
  inferInstanceAs (Decidable (_ ∨ _))

/-- The view shows the same of a node and of its image as a whole. -/
structure Reads (f : Node → Node) (n : Node) : Prop extends Shows f n where
  children_eq : (f n).children = n.children.map f
  firstToken?_eq : readsFirst n.kind → (f n).firstToken? = n.firstToken?
  hasOf_eq : (f n).hasToken "of" = n.hasToken "of"

theorem Reads.childOfKind?_map (h : Reads f n) (below : ∀ c ∈ n.children, (f c).kind = c.kind)
    (kinds : List String) : (f n).childOfKind? kinds = (n.childOfKind? kinds).map f := by
  rw [childOfKind?, h.children_eq, List.find?_map, childOfKind?]
  have kept : n.children.find? ((fun c => kinds.contains c.kind) ∘ f)
      = n.children.find? fun c => kinds.contains c.kind := by
    rw [← List.head?_filter, ← List.head?_filter]
    refine congrArg List.head? (List.filter_congr fun c hc => ?_)
    rw [Function.comp_apply, below c hc]
  rw [kept]

/-! ### Nodes below -/

theorem mem_branches_of_child? {name : String} (found : n.child? name = some m) :
    m ∈ n.branches := by
  rw [child?, fieldBranch?, Option.filter_eq_some_iff] at found
  exact List.mem_of_find?_eq_some found.1

theorem mem_nodes_of_child? {name : String} (found : n.child? name = some m) : m ∈ n.nodes :=
  mem_nodes_of_mem_branches (mem_branches_of_child? found)

theorem mem_nodes_trans {o : Node} (hm : m ∈ n.nodes) (ho : o ∈ m.nodes) : o ∈ n.nodes :=
  (nodes_sublist n hm).subset ho

theorem Within.mem_nodes {parts : List Node} (h : Within parts [n]) (hm : m ∈ parts) :
    m ∈ n.nodes := by
  obtain ⟨others, perm⟩ := h
  rw [← nodesAll_singleton]
  exact perm.subset (List.mem_append_left _ (nodes_subset_nodesAll hm m.mem_nodes_self))

/-- The view shows the same of all nodes of a tree and of their images. -/
def ReadsAll (f : Node → Node) (n : Node) : Prop :=
  ∀ m ∈ n.nodes, m.Reads f

namespace ReadsAll

variable (h : ReadsAll f n)
include h

theorem self : n.Reads f :=
  h n n.mem_nodes_self

theorem of_mem (hm : m ∈ n.nodes) : ReadsAll f m :=
  fun o ho => h o (mem_nodes_trans hm ho)

theorem child {name : String} (found : n.child? name = some m) : ReadsAll f m :=
  h.of_mem (mem_nodes_of_child? found)

theorem visible (hm : m ∈ n.children) : ReadsAll f m :=
  h.of_mem (mem_nodes_of_mem_children hm)

theorem shown : ∀ c ∈ n.children, c.Shows f :=
  fun _ hc => (h.visible hc).self.toShows

end ReadsAll

/-! ### Walks -/

theorem nodesAll_filter_sublist (p : Node → Bool) (ns : List Node) :
    (nodesAll (ns.filter p)).Sublist (nodesAll ns) := by
  induction ns with
  | nil => exact .slnil
  | cons c rest ih =>
    by_cases h : p c
    · rw [List.filter_cons_of_pos h]
      exact ih.append_left c.nodes
    · rw [List.filter_cons_of_neg h]
      exact ih.trans (List.sublist_append_right c.nodes _)

theorem nodesAll_children_sublist (n : Node) :
    (nodesAll n.children).Sublist (nodesAll n.branches) :=
  nodesAll_filter_sublist isVisible n.branches

theorem walkPending_sublist_nodesAll (pending : List Node) :
    (walkPending pending).Sublist (nodesAll pending) := by
  fun_induction walkPending pending with
  | case1 => exact .slnil
  | case2 n rest below =>
    rw [nodesAll_append] at below
    rw [nodesAll, n.nodes_eq, List.cons_append]
    exact (below.trans (n.nodesAll_children_sublist.append_right _)).cons_cons n

theorem walk_sublist_nodes (n : Node) : n.walk.Sublist n.nodes := by
  rw [← nodesAll_singleton]
  exact walkPending_sublist_nodesAll [n]

theorem walk_subset_nodes (n : Node) : n.walk ⊆ n.nodes :=
  n.walk_sublist_nodes.subset

theorem walkPending_map (pending : List Node)
    (h : ∀ m ∈ nodesAll pending, (f m).children = m.children.map f) :
    walkPending (pending.map f) = (walkPending pending).map f := by
  fun_induction walkPending pending with
  | case1 => simp [walkPending]
  | case2 n rest ih =>
    rw [nodesAll, n.nodes_eq, List.cons_append, List.forall_mem_cons, List.forall_mem_append] at h
    have below : ∀ m ∈ nodesAll (n.children ++ rest), (f m).children = m.children.map f := by
      rw [nodesAll_append, List.forall_mem_append]
      exact ⟨fun m hm => h.2.1 m (n.nodesAll_children_sublist.subset hm), h.2.2⟩
    rw [List.map_cons, walkPending, h.1, ← List.map_append, ih below,
      List.map_cons]

theorem ReadsAll.walk_map (h : ReadsAll f n) : (f n).walk = n.walk.map f := by
  refine walkPending_map [n] fun m hm => (h m ?_).children_eq
  rwa [← nodesAll_singleton]

end ComplexityMeter.Syntax.Node
