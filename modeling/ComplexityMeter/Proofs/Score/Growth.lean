import ComplexityMeter.Proofs.Score.Traversal

/-!
# What scoring does to its context

Scoring a node leaves its context as it found it, except that nodes of the tree that was scored
count as scored now. Nothing that counted as scored is forgotten.
-/

namespace ComplexityMeter.Score

open Syntax (Node)

variable {α : Type} [Scalar α]

/-- The second context is the first one after some of the nodes have been scored. -/
def Grows (ns : List Node) (c c' : Context) : Prop :=
  ∃ added, added ⊆ ns.map Node.identity ∧ c' = { c with visited := added ++ c.visited }

namespace Grows

variable {ns more : List Node} {c c' c'' : Context}

theorem refl (ns : List Node) (c : Context) : Grows ns c c :=
  ⟨[], List.nil_subset _, rfl⟩

theorem mono (h : Grows ns c c') (subset : ns ⊆ more) : Grows more c c' := by
  obtain ⟨added, inside, rfl⟩ := h
  exact ⟨added, List.Subset.trans inside (List.map_subset _ subset), rfl⟩

theorem trans (h : Grows ns c c') (h' : Grows ns c' c'') : Grows ns c c'' := by
  obtain ⟨added, inside, rfl⟩ := h
  obtain ⟨later, inside', rfl⟩ := h'
  refine ⟨later ++ added, List.append_subset.2 ⟨inside', inside⟩, ?_⟩
  simp

theorem depth_eq (h : Grows ns c c') : c'.depth = c.depth := by
  obtain ⟨_, _, rfl⟩ := h
  rfl

theorem ceiling_eq (h : Grows ns c c') : c'.ceiling = c.ceiling := by
  obtain ⟨_, _, rfl⟩ := h
  rfl

theorem visited_suffix (h : Grows ns c c') : c.visited <:+ c'.visited := by
  obtain ⟨added, _, rfl⟩ := h
  exact List.suffix_append added c.visited

/-- Whatever counts as scored afterwards counted before or belongs to one of the nodes. -/
theorem of_mem_visited (h : Grows ns c c') {i : Nat} (hi : i ∈ c'.visited) :
    i ∈ c.visited ∨ ∃ n ∈ ns, n.identity = i := by
  obtain ⟨added, inside, rfl⟩ := h
  rcases List.mem_append.1 hi with hi | hi
  · exact .inr (List.mem_map.1 (inside hi))
  · exact .inl hi

theorem leave {n : Node} (h : Grows ns (c.enter n) c') (below : ns ⊆ n.nodes) :
    Grows n.nodes c c'.leave := by
  obtain ⟨added, inside, rfl⟩ := h
  refine ⟨added ++ [n.identity], ?_, ?_⟩
  · refine List.append_subset.2 ⟨List.Subset.trans inside (List.map_subset _ below), ?_⟩
    simpa using ⟨n, n.mem_nodes_self, rfl⟩
  · simp [Context.enter, Context.leave]

end Grows

theorem nodesAll_plan_subset (n : Node) : Node.nodesAll (plan (α := α) n).parts ⊆ n.nodes := by
  obtain ⟨others, perm⟩ := within_plan (α := α) n
  rw [n.nodes_eq]
  intro m hm
  exact List.mem_cons_of_mem _ (perm.subset (List.mem_append_left _ hm))

/-- Treating the parts of a node one after the other lets the context grow if treating each does. -/
theorem grows_scoreParts {c : Context} {n : Node}
    (h : ∀ p ∈ (plan (α := α) n).parts, ∀ c' : Context, Grows p.nodes c' (c'.score (α := α) p).2) :
    Grows (Node.nodesAll (plan (α := α) n).parts) (c.enter n) (c.scoreParts (α := α) n).2 := by
  let reached (_ : List Node) (s t : Context) : Prop :=
    s = t ∧ Grows (Node.nodesAll (plan (α := α) n).parts) (c.enter n) s
  have each : ∀ p ∈ (plan (α := α) n).parts, Agree reached [p] (visit (α := α) p) (visit p) := by
    rintro p hp _ s _ ⟨rfl, grown⟩
    have further := (h p hp s).mono (Node.nodes_subset_nodesAll hp)
    exact ⟨rfl, rfl, grown.trans further⟩
  have whole := Agree.plan_run each (s := c.enter n) (t := c.enter n) ⟨rfl, .refl _ _⟩
  exact whole.2.2

theorem grows_score (n : Node) (c : Context) : Grows n.nodes c (c.score (α := α) n).2 := by
  induction n using part_induction α generalizing c with
  | step n ih =>
    cases within : c.isCutOff with
    | true =>
      rw [Context.score_of_cutOff within]
      exact .refl _ c
    | false =>
      by_cases known : n.identity ∈ c.visited
      · rw [Context.score_of_visited within known]
        exact .refl _ c
      · rw [Context.score_of_new within known]
        exact (grows_scoreParts ih).leave (nodesAll_plan_subset n)

end ComplexityMeter.Score
