import ComplexityMeter.Number
import ComplexityMeter.Proofs.Score.Formula
import ComplexityMeter.Proofs.Score.Growth
import ComplexityMeter.Score.File

/-!
# Scores of trees without repeated identities

Where the nodes of a tree have different identities and none of them has been scored, scoring
depends on nothing but the node and the levels that are left: no part of a node can be met before
it is scored for that node, since the parts of every form stand in different places. Statements of
a file are then scored as if each stood alone.
-/

namespace ComplexityMeter.Score

open Syntax (Node Tree)

variable {α : Type} [Scalar α]

/-- The result of a node by the formula of its form, from the results of its parts with one level
less. -/
def compose : (levels : Nat) → Node → Result α
  | 0, n => truncated n
  | levels + 1, n => formula (compose levels) n

theorem compose_succ (levels : Nat) (n : Node) :
    compose (α := α) (levels + 1) n = composed n ((plan n).map (compose levels)) := by
  rw [compose, composed_plan]

/-- The levels left at a depth. Without a limit there are as many as the node can need. -/
def Ceiling.levels (depth : Int) (n : Node) : Ceiling → Nat
  | .level bound => (bound - depth).toNat
  | .unlimited => n.size

/-- So many levels are left at a depth, or without a limit at least as many as the node needs. -/
def Ceiling.Leaves (depth : Int) (levels : Nat) (n : Node) : Ceiling → Prop
  | .level bound => levels = (bound - depth).toNat
  | .unlimited => n.size ≤ levels

theorem Ceiling.leaves_levels (ceiling : Ceiling) (depth : Int) (n : Node) :
    ceiling.Leaves depth (ceiling.levels depth n) n := by
  cases ceiling with
  | level bound => rfl
  | unlimited => exact Nat.le_refl _

theorem Ceiling.leaves_both (ceiling : Ceiling) (depth : Int) (n n' : Node) :
    ∃ levels, ceiling.Leaves depth levels n ∧ ceiling.Leaves depth levels n' := by
  cases ceiling with
  | level bound => exact ⟨_, rfl, rfl⟩
  | unlimited => exact ⟨max n.size n'.size, Nat.le_max_left _ _, Nat.le_max_right _ _⟩

theorem Ceiling.Leaves.cutOff {ceiling : Ceiling} {depth : Int} {levels : Nat} {n : Node}
    (h : ceiling.Leaves depth levels n) (reached : ceiling.isReached depth = true) :
    levels = 0 := by
  cases ceiling with
  | level bound =>
    simp only [isReached, decide_eq_true_eq] at reached
    rw [h]
    omega
  | unlimited => cases reached

theorem Ceiling.Leaves.part {ceiling : Ceiling} {depth : Int} {levels : Nat} {n : Node}
    (h : ceiling.Leaves depth levels n) (within : ceiling.isReached depth = false) :
    ∃ fewer, levels = fewer + 1
      ∧ ∀ p : Node, p.size < n.size → ceiling.Leaves (depth + 1) fewer p := by
  cases ceiling with
  | level bound =>
    simp only [isReached, decide_eq_false_iff_not] at within
    refine ⟨(bound - (depth + 1)).toNat, ?_, fun _ _ => rfl⟩
    rw [h]
    omega
  | unlimited =>
    have enough : n.size ≤ levels := h
    refine ⟨levels - 1, by have := n.size_pos; omega, fun p hp => ?_⟩
    show p.size ≤ levels - 1
    omega

/-- Some trees have nodes that all differ from each other and that have not been scored. -/
structure Fresh (ns : List Node) (visited : Visited) : Prop where
  distinct : ((Node.nodesAll ns).map Node.identity).Nodup
  unscored : ∀ m ∈ Node.nodesAll ns, m.identity ∉ visited

namespace Fresh

variable {ns rest ps : List Node} {n p : Node} {visited : Visited}

theorem of_node (distinct : (n.nodes.map Node.identity).Nodup)
    (unscored : ∀ m ∈ n.nodes, m.identity ∉ visited) : Fresh [n] visited :=
  ⟨by simpa using distinct, by simpa using unscored⟩

theorem first (h : Fresh (p :: rest) visited) : Fresh [p] visited := by
  obtain ⟨distinct, unscored⟩ := h
  rw [Node.nodesAll, List.map_append] at distinct
  exact .of_node (List.nodup_append.1 distinct).1 fun m hm =>
    unscored m (List.mem_append_left _ hm)

theorem next (h : Fresh (p :: rest) visited) {later : Visited}
    (added : ∀ i ∈ later, i ∈ visited ∨ ∃ m ∈ p.nodes, m.identity = i) : Fresh rest later := by
  obtain ⟨distinct, unscored⟩ := h
  rw [Node.nodesAll, List.map_append] at distinct
  obtain ⟨_, others, apart⟩ := List.nodup_append.1 distinct
  refine ⟨others, fun m hm known => ?_⟩
  rcases added _ known with known | ⟨o, ho, same⟩
  · exact unscored m (List.mem_append_right _ hm) known
  · exact apart _ (List.mem_map_of_mem ho) _ (List.mem_map_of_mem hm) same

theorem below (h : Fresh [n] visited) (within : Node.Within ps n.branches) :
    Fresh ps (n.identity :: visited) := by
  obtain ⟨distinct, unscored⟩ := h
  obtain ⟨others, perm⟩ := within
  rw [Node.nodesAll_singleton, n.nodes_eq] at distinct unscored
  obtain ⟨alone, branches⟩ := List.nodup_cons.1 distinct
  refine ⟨?_, fun m hm known => ?_⟩
  · have placed := ((perm.map Node.identity).nodup_iff).2 branches
    rw [List.map_append] at placed
    exact (List.nodup_append.1 placed).1
  · have hm := perm.subset (List.mem_append_left others hm)
    rcases List.mem_cons.1 known with same | known
    · exact alone (same ▸ List.mem_map_of_mem hm)
    · exact unscored m (List.mem_cons_of_mem n hm) known

end Fresh

/-- A scoring stands at a depth below a ceiling, with fresh trees before it. -/
structure Ready (ceiling : Ceiling) (depth : Int) (ns : List Node) (c : Context) : Prop where
  ceiling_eq : c.ceiling = ceiling
  depth_eq : c.depth = depth
  fresh : Fresh ns c.visited

namespace Ready

variable {ceiling : Ceiling} {depth : Int} {ns rest : List Node} {n p : Node} {c c' : Context}

theorem isCutOff_eq (h : Ready ceiling depth ns c) : c.isCutOff = ceiling.isReached depth := by
  rw [Context.isCutOff, h.ceiling_eq, h.depth_eq]

theorem first (h : Ready ceiling depth (p :: rest) c) : Ready ceiling depth [p] c :=
  ⟨h.ceiling_eq, h.depth_eq, h.fresh.first⟩

theorem next (h : Ready ceiling depth (p :: rest) c) (grown : Grows p.nodes c c') :
    Ready ceiling depth rest c' where
  ceiling_eq := grown.ceiling_eq.trans h.ceiling_eq
  depth_eq := grown.depth_eq.trans h.depth_eq
  fresh := h.fresh.next fun _ => grown.of_mem_visited

theorem parts (h : Ready ceiling depth [n] c) :
    Ready ceiling (depth + 1) (plan (α := α) n).parts (c.enter n) where
  ceiling_eq := h.ceiling_eq
  depth_eq := congrArg (· + 1) h.depth_eq
  fresh := h.fresh.below (within_plan n)

end Ready

/-- A node that has a certain result where it is scored as the first of some trees has it wherever
fresh trees are scored one after the other. -/
theorem agree_of_ready {ceiling : Ceiling} {depth : Int} {p : Node} {result : Result α}
    (h : ∀ c, Ready ceiling depth [p] c → (c.score p).1 = result) :
    Agree (fun rest c (_ : Unit) => Ready ceiling depth rest c) [p] (visit p) (pure result) := by
  intro rest c _ ready
  exact ⟨h c ready.first, ready.next (grows_score p c)⟩

theorem score_eq_compose (n : Node) {ceiling : Ceiling} {depth : Int} {levels : Nat} {c : Context}
    (leaves : ceiling.Leaves depth levels n) (ready : Ready ceiling depth [n] c) :
    (c.score n).1 = compose (α := α) levels n := by
  induction n using part_induction α generalizing depth levels c with
  | step n ih =>
    cases within : ceiling.isReached depth with
    | true =>
      rw [Context.score_of_cutOff (ready.isCutOff_eq.trans within), leaves.cutOff within, compose]
    | false =>
      obtain ⟨fewer, rfl, fewerLeaves⟩ := leaves.part within
      have unknown : n.identity ∉ c.visited :=
        ready.fresh.unscored n (by simp [Node.mem_nodes_self])
      have each : ∀ p ∈ (plan (α := α) n).parts,
          Agree (fun rest c (_ : Unit) => Ready ceiling (depth + 1) rest c) [p] (visit p)
            (pure (compose (α := α) fewer p)) := fun p hp =>
        agree_of_ready fun c ready => ih p hp (fewerLeaves p (size_lt_of_mem_plan hp)) ready
      have parts := (Agree.plan_run each (s := c.enter n) (t := ()) ready.parts).1
      rw [Plan.mapM_pure] at parts
      rw [Context.score_of_new (ready.isCutOff_eq.trans within) unknown, compose_succ]
      exact congrArg (composed n) parts

/-! ### No result is circular -/

theorem notCircular_resultOf {n : Node} {score : α} {parts : List (Result α)}
    {facts : Entries (Value α)} (none : facts.get? "circular" = none)
    (below : ∀ p ∈ parts, ∀ r ∈ p.preorder, r.isCircular = false) :
    ∀ r ∈ (resultOf n score parts facts).preorder, r.isCircular = false := by
  intro r hr
  rw [Result.preorder_eq] at hr
  rcases List.mem_cons.1 hr with rfl | hr
  · simp [Result.isCircular, Result.hasFact, resultOf, none]
  · obtain ⟨p, hp, hr⟩ := List.mem_flatMap.1 hr
    exact below p hp r hr

theorem facts_of_plan {n : Node} {recipe : Recipe α Node} (h : plan n = .recipe recipe)
    {name : String} (guard : name = "truncated" ∨ name = "circular") :
    recipe.facts.get? name = none := by
  rw [plan] at h
  cases form : Form.ofKind n.kind with
  | transparent =>
    rw [form, planOfForm] at h
    split at h
    · obtain rfl := Plan.recipe.inj h
      rfl
    · cases h
  | _ =>
    rw [form] at h
    obtain rfl := Plan.recipe.inj h
    rcases guard with rfl | rfl <;> rfl

theorem notCircular_compose (levels : Nat) (n : Node) :
    ∀ r ∈ (compose (α := α) levels n).preorder, r.isCircular = false := by
  induction levels generalizing n with
  | zero => exact notCircular_resultOf rfl (by simp)
  | succ levels ih =>
    rw [compose_succ]
    cases h : plan (α := α) n with
    | recipe recipe =>
      refine notCircular_resultOf (facts_of_plan h (.inr rfl)) ?_
      intro p hp
      rw [Recipe.parts_map] at hp
      obtain ⟨m, _, rfl⟩ := List.mem_map.1 hp
      exact ih m
    | inner m => exact ih m

/-! ### The statements of a file -/

theorem Ready.alone {n : Node} (distinct : (n.nodes.map Node.identity).Nodup) (ceiling : Ceiling) :
    Ready ceiling 0 [n] (Context.start Context.unnamed ceiling) :=
  ⟨rfl, rfl, .of_node distinct (by simp [Context.start])⟩

theorem scoreAlone_eq_compose {n : Node} (distinct : (n.nodes.map Node.identity).Nodup)
    {ceiling : Ceiling} {levels : Nat} (leaves : ceiling.Leaves 0 levels n) :
    scoreAlone (α := α) ceiling n = compose levels n :=
  score_eq_compose n leaves (.alone distinct ceiling)

theorem score_eq_scoreAlone {ceiling : Ceiling} {p : Node} {c : Context}
    (ready : Ready ceiling 0 [p] c) : (c.score p).1 = scoreAlone (α := α) ceiling p := by
  have distinct : (p.nodes.map Node.identity).Nodup := by simpa using ready.fresh.distinct
  have leaves := ceiling.leaves_levels 0 p
  rw [score_eq_compose p leaves ready, scoreAlone_eq_compose distinct leaves]

theorem statementResults_eq {t : Tree} (distinct : (t.root.nodes.map Node.identity).Nodup)
    (ceiling : Ceiling) :
    statementResults ceiling t = t.root.children.map (scoreAlone (α := α) ceiling) := by
  have root : Fresh [t.root] [] := .of_node distinct (by simp)
  have ready : Ready ceiling 0 t.root.children (fileContext ceiling t) :=
    ⟨rfl, rfl, root.below (within_children t.root)⟩
  have each : ∀ p ∈ t.root.children,
      Agree (fun rest c (_ : Unit) => Ready ceiling 0 rest c) [p] (visit p)
        (pure (scoreAlone (α := α) ceiling p)) :=
    fun p _ => agree_of_ready fun c ready => score_eq_scoreAlone ready
  have results := (Agree.list each [] (fileContext ceiling t) () (by simpa using ready)).1
  rw [List.mapM_pure] at results
  exact results

theorem notCircular_score {n : Node} {c : Context} (fresh : Fresh [n] c.visited) :
    ∀ r ∈ (c.score (α := α) n).1.preorder, r.isCircular = false := by
  rw [score_eq_compose n (c.ceiling.leaves_levels c.depth n) ⟨rfl, rfl, fresh⟩]
  exact notCircular_compose _ n

/-- In a tree without repeated identities, a node none of whose nodes has been scored gets the
result that its form composes from its parts with the levels left, whatever else has been scored,
and no result below it is circular. In a file, every statement gets the result that it gets
alone. -/
theorem score_compositional {t : Tree} (distinct : (t.root.nodes.map Node.identity).Nodup) :
    (∀ n ∈ t.root.nodes, ∀ c : Context, (∀ m ∈ n.nodes, m.identity ∉ c.visited) →
      (c.score n).1 = compose (α := α) (c.ceiling.levels c.depth n) n
        ∧ ∀ r ∈ (c.score (α := α) n).1.preorder, r.isCircular = false)
    ∧ ∀ ceiling, (scoreFile (α := α) ceiling t).parts
          = t.root.children.map (scoreAlone ceiling)
        ∧ ∀ r ∈ (scoreFile (α := α) ceiling t).preorder, r.isCircular = false := by
  have freshAt : ∀ n ∈ t.root.nodes, ∀ visited, (∀ m ∈ n.nodes, m.identity ∉ visited) →
      Fresh [n] visited := by
    intro n hn visited unscored
    exact .of_node (Node.distinct_of_mem distinct hn) unscored
  refine ⟨fun n hn c unscored => ?_, fun ceiling => ?_⟩
  · have fresh := freshAt n hn c.visited unscored
    exact ⟨score_eq_compose n (c.ceiling.leaves_levels c.depth n) ⟨rfl, rfl, fresh⟩,
      notCircular_score fresh⟩
  · have statements := statementResults_eq (α := α) distinct ceiling
    refine ⟨statements, fun r hr => ?_⟩
    rw [Result.preorder_eq] at hr
    rcases List.mem_cons.1 hr with rfl | hr
    · rfl
    · obtain ⟨p, hp, hr⟩ := List.mem_flatMap.1 hr
      rw [scoreFile, statements] at hp
      obtain ⟨statement, hs, rfl⟩ := List.mem_map.1 hp
      have inside := Node.mem_nodes_of_mem_children hs
      exact notCircular_score (freshAt statement inside [] (by simp)) r hr

/-- A named node without a text, in the first row. -/
def sketch (kind : String) (field : Option String) (identity : Nat) (branches : List Node) : Node :=
  ⟨kind, true, false, false, field, "", 0, 0, identity, branches⟩

def conditionalCall : Node :=
  sketch "if_statement" none 1
    [sketch "identifier" (some "condition") 2 [],
      sketch "statement_block" (some "consequence") 3
        [sketch "call_expression" none 4 [sketch "identifier" (some "function") 5 [],
          sketch "arguments" (some "arguments") 6 [sketch "number" none 7 []]]]]

/-- A condition, and a sum after it. -/
def conditionThenSum : Tree :=
  ⟨sketch "program" none 0
    [conditionalCall, sketch "binary_expression" none 8
      [sketch "number" (some "left") 9 [], sketch "number" (some "right") 10 []]],
    "sum.ts", .typescript⟩

theorem score_compositional_conditionThenSum :
    (conditionThenSum.root.nodes.map Node.identity).Nodup
    ∧ conditionalCall ∈ conditionThenSum.root.nodes
    ∧ ((Context.mk "sum.ts" (.level 3) 1 [0, 8, 9]).score conditionalCall).1
        = compose (α := Number) 2 conditionalCall
    ∧ (scoreFile (α := Number) .unlimited conditionThenSum).parts
        = conditionThenSum.root.children.map (scoreAlone .unlimited) := by
  have distinct : (conditionThenSum.root.nodes.map Node.identity).Nodup := by decide
  have inside : conditionalCall ∈ conditionThenSum.root.nodes :=
    Node.mem_nodes_of_mem_branches List.mem_cons_self
  obtain ⟨nodes, files⟩ := score_compositional (α := Number) distinct
  have unscored : ∀ m ∈ conditionalCall.nodes, m.identity ∉ [0, 8, 9] := by decide
  exact ⟨distinct, inside, (nodes _ inside ⟨"sum.ts", .level 3, 1, [0, 8, 9]⟩ unscored).1,
    (files .unlimited).1⟩

end ComplexityMeter.Score
