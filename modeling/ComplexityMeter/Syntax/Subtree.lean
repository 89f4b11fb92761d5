import ComplexityMeter.Syntax.Node

/-!
# Nodes of a tree

All nodes of a tree, tokens and comments included, and trees that stand in different places within
other trees. Nodes under different grammar fields of a node stand in different places.
-/

namespace ComplexityMeter.Syntax.Node

mutual

/-- The node and all nodes below it. -/
def nodes : Node → List Node
  | ⟨kind, isNamed, isMissing, hasError, field, text, startRow, endRow, identity, branches⟩ =>
    ⟨kind, isNamed, isMissing, hasError, field, text, startRow, endRow, identity, branches⟩
      :: nodesAll branches

def nodesAll : List Node → List Node
  | [] => []
  | c :: rest => c.nodes ++ nodesAll rest

end

theorem nodes_eq (n : Node) : n.nodes = n :: nodesAll n.branches := by
  obtain ⟨_, _, _, _, _, _, _, _, _, _⟩ := n
  simp only [nodes]

theorem nodesAll_eq_flatMap (ns : List Node) : nodesAll ns = ns.flatMap nodes := by
  induction ns with
  | nil => rfl
  | cons c rest ih => simp [nodesAll, ih]

@[simp] theorem nodesAll_append (a b : List Node) :
    nodesAll (a ++ b) = nodesAll a ++ nodesAll b := by
  simp [nodesAll_eq_flatMap]

@[simp] theorem nodesAll_singleton (n : Node) : nodesAll [n] = n.nodes := by
  simp [nodesAll]

theorem mem_nodes_self (n : Node) : n ∈ n.nodes := by
  rw [nodes_eq]
  exact List.mem_cons_self

theorem nodes_subset_nodesAll {n : Node} {ns : List Node} (h : n ∈ ns) :
    n.nodes ⊆ nodesAll ns := by
  rw [nodesAll_eq_flatMap]
  intro m hm
  exact List.mem_flatMap.2 ⟨n, h, hm⟩

theorem mem_nodes_of_mem_branches {n c : Node} (h : c ∈ n.branches) : c ∈ n.nodes := by
  rw [nodes_eq]
  exact List.mem_cons_of_mem n (nodes_subset_nodesAll h c.mem_nodes_self)

theorem mem_nodes_of_mem_children {n c : Node} (h : c ∈ n.children) : c ∈ n.nodes :=
  mem_nodes_of_mem_branches (List.mem_filter.1 h).1

mutual

theorem length_nodes : (n : Node) → n.nodes.length = n.size
  | ⟨_, _, _, _, _, _, _, _, _, branches⟩ => by
    simp only [nodes, size, List.length_cons, length_nodesAll branches]

theorem length_nodesAll : (ns : List Node) → (nodesAll ns).length = sizeAll ns
  | [] => rfl
  | c :: rest => by
    simp only [nodesAll, sizeAll, List.length_append, length_nodes c, length_nodesAll rest]

end

mutual

theorem nodes_sublist {n : Node} : (m : Node) → n ∈ m.nodes → n.nodes.Sublist m.nodes
  | ⟨kind, isNamed, isMissing, hasError, field, text, startRow, endRow, identity, branches⟩, h => by
    simp only [nodes] at h ⊢
    rcases List.mem_cons.1 h with rfl | h
    · simp only [nodes]
      exact List.Sublist.refl _
    · exact (nodes_sublist_nodesAll branches h).cons _

theorem nodes_sublist_nodesAll {n : Node} :
    (ms : List Node) → n ∈ nodesAll ms → n.nodes.Sublist (nodesAll ms)
  | [], h => nomatch h
  | m :: rest, h => by
    rw [nodesAll] at h ⊢
    rcases List.mem_append.1 h with h | h
    · exact (nodes_sublist m h).trans (List.sublist_append_left _ _)
    · exact (nodes_sublist_nodesAll rest h).trans (List.sublist_append_right _ _)

end

theorem distinct_of_mem {n m : Node} (distinct : (n.nodes.map identity).Nodup) (h : m ∈ n.nodes) :
    (m.nodes.map identity).Nodup :=
  distinct.sublist ((nodes_sublist n h).map _)

theorem size_le_sizeAll {n : Node} {ns : List Node} (h : n ∈ ns) : n.size ≤ sizeAll ns := by
  induction ns with
  | nil => cases h
  | cons c rest ih =>
    simp only [sizeAll]
    rcases List.mem_cons.1 h with rfl | h
    · omega
    · have := ih h
      omega

@[elab_as_elim]
theorem branches_induction {motive : Node → Prop}
    (step : ∀ n, (∀ c ∈ n.branches, motive c) → motive n) (n : Node) : motive n :=
  step n fun c _ => branches_induction step c
termination_by n.size
decreasing_by
  rw [size_eq n]
  exact Nat.lt_succ_of_le (size_le_sizeAll ‹_›)

/-! ### Trees within trees -/

/-- All nodes of some trees are nodes of other trees, each in a place of its own. -/
def Within (parts whole : List Node) : Prop :=
  ∃ others, (nodesAll parts ++ others).Perm (nodesAll whole)

namespace Within

theorem of_perm {a b : List Node} (h : a.Perm b) : Within a b := by
  refine ⟨[], ?_⟩
  rw [List.append_nil, nodesAll_eq_flatMap, nodesAll_eq_flatMap]
  exact h.flatMap_right nodes

theorem refl (ns : List Node) : Within ns ns :=
  of_perm (List.Perm.refl ns)

theorem nil (ns : List Node) : Within [] ns :=
  ⟨nodesAll ns, List.Perm.refl _⟩

theorem trans {a b c : List Node} (hab : Within a b) (hbc : Within b c) : Within a c := by
  obtain ⟨others, hab⟩ := hab
  obtain ⟨more, hbc⟩ := hbc
  refine ⟨others ++ more, ?_⟩
  rw [← List.append_assoc]
  exact (hab.append_right more).trans hbc

theorem append {a b c d : List Node} (hab : Within a b) (hcd : Within c d) :
    Within (a ++ c) (b ++ d) := by
  obtain ⟨others, hab⟩ := hab
  obtain ⟨more, hcd⟩ := hcd
  refine ⟨others ++ more, ?_⟩
  have swap : (nodesAll a ++ (nodesAll c ++ others) ++ more).Perm
      (nodesAll a ++ (others ++ nodesAll c) ++ more) :=
    (List.perm_append_comm.append_left _).append_right more
  simpa using swap.trans (by simpa using hab.append hcd)

theorem of_sublist {a b : List Node} (h : a.Sublist b) : Within a b := by
  induction h with
  | slnil => exact .nil []
  | cons x _ ih => exact (Within.nil [x]).append ih
  | cons_cons x _ ih => exact (Within.refl [x]).append ih

theorem flatMap {ns : List Node} {f : Node → List Node} (h : ∀ n ∈ ns, Within (f n) [n]) :
    Within (ns.flatMap f) ns := by
  induction ns with
  | nil => exact .nil []
  | cons n rest ih =>
    rw [List.flatMap_cons]
    exact (h n List.mem_cons_self).append (ih fun m hm => h m (List.mem_cons_of_mem _ hm))

theorem filterMap {ns : List Node} {f : Node → Option Node}
    (h : ∀ n ∈ ns, Within (f n).toList [n]) : Within (ns.filterMap f) ns := by
  have listed : ns.filterMap f = ns.flatMap fun n => (f n).toList := by
    clear h
    induction ns with
    | nil => rfl
    | cons n rest ih =>
      rw [List.filterMap_cons, List.flatMap_cons, ← ih]
      cases f n <;> rfl
  rw [listed]
  exact .flatMap h

theorem under_fields (ns : List Node) (picks : List (String × List Node))
    (distinct : (picks.map Prod.fst).Nodup)
    (h : ∀ e ∈ picks, Within e.2 (ns.filter fun c => c.field = some e.1)) :
    Within (picks.flatMap Prod.snd) ns := by
  induction picks generalizing ns with
  | nil => exact .nil ns
  | cons e rest ih =>
    rw [List.map_cons] at distinct
    obtain ⟨alone, distinct⟩ := List.nodup_cons.1 distinct
    have others : Within (rest.flatMap Prod.snd)
        (ns.filter fun c => !decide (c.field = some e.1)) := by
      apply ih _ distinct
      intro g hg
      have hne : e.1 ≠ g.1 := by
        intro same
        exact alone (same ▸ List.mem_map_of_mem hg)
      have same : (ns.filter fun c => !decide (c.field = some e.1)).filter
          (fun c => c.field = some g.1) = ns.filter fun c => c.field = some g.1 := by
        rw [List.filter_filter]
        apply List.filter_congr
        intro c _
        by_cases hc : c.field = some g.1
        · simpa [hc] using hne.symm
        · simp [hc]
      rw [same]
      exact h g (List.mem_cons_of_mem _ hg)
    rw [List.flatMap_cons]
    exact ((h e List.mem_cons_self).append others).trans
      (of_perm (List.filter_append_perm _ ns))

theorem sizeAll_le {a b : List Node} (h : Within a b) : sizeAll a ≤ sizeAll b := by
  obtain ⟨others, h⟩ := h
  have := h.length_eq
  rw [List.length_append, length_nodesAll, length_nodesAll] at this
  omega

end Within

end ComplexityMeter.Syntax.Node
