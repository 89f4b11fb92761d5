import ComplexityMeter.Proofs.Score.Monotone
import ComplexityMeter.Proofs.Score.View
import ComplexityMeter.Proofs.Syntax.Addition

/-!
# Scores of trees with an added node

A node that is appended to a block or to the program itself never lowers the score of the file.
Most forms score the same parts by the same plan, each with the addition made below it. Only the
body of a class or a switch and a block itself can gain a part, and their weights grow with it.
-/

namespace ComplexityMeter.Score

open Syntax (Node Tree Addition)

/-- Within a tree, the addition is made below blocks only. -/
def InBlocks (a : Addition) (n : Node) : Prop :=
  ∀ m ∈ n.nodes, m.identity = a.place → m.kind = "statement_block"

namespace InBlocks

variable {a : Addition} {n m : Node}

theorem of_mem (h : InBlocks a n) (hm : m ∈ n.nodes) : InBlocks a m :=
  fun o ho => h o ((Node.nodes_sublist n hm).subset ho)

theorem child (h : InBlocks a n) {name : String} (found : n.child? name = some m) :
    InBlocks a m :=
  h.of_mem (Node.mem_nodes_of_child? found)

theorem elsewhere (h : InBlocks a n) (kind : n.kind ≠ "statement_block") :
    n.identity ≠ a.place :=
  fun here => kind (h n n.mem_nodes_self here)

theorem maps (h : InBlocks a n) : Maps a.apply n where
  shows m _ := a.shows_apply m
  reads _ hm kind := a.reads_apply fun here => kind (h _ hm here)

end InBlocks

section

variable {α : Type} [Scalar α] {a : Addition} {n : Node}

/-! ### What rules read -/

theorem members_apply : ∃ added, members (a.apply n) = (members n).map a.apply ++ added := by
  cases found : n.child? "body" with
  | none => exact ⟨[], by simp [members, found]⟩
  | some body => exact ⟨a.addedBelow body, by simp [members, found, a.children_apply]⟩

theorem parameterNodes_apply :
    ∃ added, parameterNodes (a.apply n) = (parameterNodes n).map a.apply ++ added := by
  cases found : n.child? "parameters" with
  | none => exact ⟨[], by simp [parameterNodes, found]⟩
  | some list => exact ⟨a.addedBelow list, by simp [parameterNodes, found, a.children_apply]⟩

theorem cases_apply : ∃ added, cases (a.apply n) = (cases n).map a.apply ++ added := by
  obtain ⟨added, members⟩ := members_apply (a := a) (n := n)
  have kept : isCase ∘ a.apply = isCase := by
    funext clause
    simp [isCase]
  refine ⟨added.filter isCase, ?_⟩
  rw [cases, members, List.filter_append, List.filter_map, kept, cases]

/-- A node of a form that gains no part is scored by the same plan, with the addition made below
each part. -/
theorem plan_apply (blocks : InBlocks a n) (form : Form.ofKind n.kind ≠ .classBody)
    (form' : Form.ofKind n.kind ≠ .switch) (form'' : Form.ofKind n.kind ≠ .block) :
    plan (α := α) (a.apply n) = (plan n).map a.apply :=
  plan_map blocks.maps fun body => absurd body (by simp [Form.holdsBody, form, form', form''])

end

/-! ### Nodes -/

section

variable {a : Addition} {n : Node} {f : Node → Result ℚ}

theorem reached_map_apply (x : ℚ) (terms : List (Term ℚ Node)) :
    reached f x (terms.map (Term.map a.apply)) = reached (fun m => f (a.apply m)) x terms := by
  simp [reached, Term.map_map, Function.comp_def]

/-- Steps over the parts with the addition, and more steps after them, reach no less. -/
theorem reached_le_added (nonneg : ∀ m, 0 ≤ (f m).score) (terms : List (Term ℚ Node))
    {added : List (Term ℚ Node)} (raises : ∀ t ∈ terms, t.Raises) (raises' : ∀ t ∈ added, t.Raises)
    (parts : ∀ m ∈ terms.flatMap Term.parts, (f m).score ≤ (f (a.apply m)).score) :
    reached f 1.0 terms ≤ reached f 1.0 (terms.map (Term.map a.apply) ++ added) := by
  have base : (0 : ℚ) ≤ 1.0 := by norm_num
  have old := reached_le (g := fun m => f (a.apply m)) raises nonneg parts base (le_refl _)
  have start : (0 : ℚ) ≤ reached f 1.0 terms := base.trans (le_reached raises nonneg base)
  rw [reached_append, reached_map_apply]
  exact old.trans (le_reached raises' nonneg (start.trans old))

/-- A part more does not lower the sum. -/
theorem scoreSum_le_added (nonneg : ∀ m, 0 ≤ (f m).score) (ps added : List Node)
    (parts : ∀ m ∈ ps, (f m).score ≤ (f (a.apply m)).score) :
    scoreSum (ps.map f) ≤ scoreSum ((ps.map a.apply ++ added).map f) := by
  have old : scoreSum (ps.map f) ≤ scoreSum ((ps.map a.apply).map f) := by
    rw [List.map_map]
    exact scoreSum_map_le parts
  have more : 0 ≤ scoreSum (added.map f) :=
    scoreSum_nonneg (by simpa using fun m _ => nonneg m)
  rw [List.map_append, scoreSum_append]
  linarith

theorem weight_le_added {weight : ℚ} (nonneg : 0 ≤ weight) {ns ns' added : List Node}
    (more : ns' = ns.map a.apply ++ added) : weight * ns.length ≤ weight * ns'.length := by
  have longer : ns.length ≤ ns'.length := by
    rw [more, List.length_append, List.length_map]
    exact Nat.le_add_right _ _
  exact mul_le_mul_of_nonneg_left (Nat.cast_le.2 longer) nonneg

theorem classRecipe_le (nonneg : ∀ m, 0 ≤ (f m).score)
    (parts : ∀ m ∈ (classRecipe (α := ℚ) n).parts, (f m).score ≤ (f (a.apply m)).score) :
    reached f 1.0 (classRecipe n).terms ≤ reached f 1.0 (classRecipe (a.apply n)).terms := by
  obtain ⟨added, more⟩ := members_apply (a := a) (n := n)
  have grown := scoreSum_le_added (a := a) nonneg (members n) added fun m hm =>
    parts m (by simpa [Recipe.parts, classRecipe, Term.parts] using hm)
  simp only [classRecipe, reached_sum, reached_nil, more]
  exact add_le_add_right grown _

theorem blockRecipe_le (nonneg : ∀ m, 0 ≤ (f m).score)
    (parts : ∀ m ∈ (blockRecipe (α := ℚ) n).parts, (f m).score ≤ (f (a.apply m)).score) :
    reached f 1.0 (blockRecipe n).terms ≤ reached f 1.0 (blockRecipe (a.apply n)).terms := by
  have weight := weight_le_added (by norm_num : (0 : ℚ) ≤ 0.1) (a.children_apply n)
  have grown := scoreSum_le_added (a := a) nonneg n.children (a.addedBelow n) fun m hm =>
    parts m (by simpa [Recipe.parts, blockRecipe, Term.parts] using hm)
  rw [← a.children_apply] at grown
  simp only [blockRecipe, reached_sum, reached_plus, reached_nil]
  exact add_le_add (add_le_add_right grown _) weight

theorem switchRecipe_le (nonneg : ∀ m, 0 ≤ (f m).score)
    (parts : ∀ m ∈ (switchRecipe (α := ℚ) n).parts, (f m).score ≤ (f (a.apply m)).score) :
    reached f 1.0 (switchRecipe n).terms ≤ reached f 1.0 (switchRecipe (a.apply n)).terms := by
  obtain ⟨added, more⟩ := cases_apply (a := a) (n := n)
  have weight := weight_le_added (by norm_num : (0 : ℚ) ≤ 0.5) more
  have steps : .sum (under (a.apply n) ["value"]) :: (cases (a.apply n)).flatMap caseTerms
      = (.sum (under n ["value"]) :: (cases n).flatMap caseTerms).map (Term.map a.apply)
        ++ added.flatMap (caseTerms (α := ℚ)) := by
    rw [more, List.flatMap_append, flatMap_caseTerms_map fun c _ => a.shows_apply c,
      under_map (a.shows_apply n)]
    rfl
  have grown := reached_le_added (a := a) nonneg
    (.sum (under n ["value"]) :: (cases n).flatMap caseTerms)
    (List.forall_mem_cons.2 ⟨trivial, raises_cases (cases n)⟩) (raises_cases added) fun m hm =>
      parts m (by simpa [Recipe.parts, switchRecipe, Term.parts] using hm)
  rw [← steps] at grown
  simp only [switchRecipe, reached_append, reached_plus, reached_nil]
  exact add_le_add grown weight

/-- A node whose parts score no less with the addition scores no less with it. -/
theorem composed_le_apply (nonneg : ∀ m, 0 ≤ (f m).score) (blocks : InBlocks a n)
    (parts : ∀ m ∈ (plan (α := ℚ) n).parts, (f m).score ≤ (f (a.apply m)).score) :
    (composed n ((plan n).map f)).score
      ≤ (composed (a.apply n) ((plan (a.apply n)).map f)).score := by
  cases form : Form.ofKind n.kind with
  | classBody =>
    simp only [plan, a.kind_apply, form, planOfForm, composed_recipe] at parts ⊢
    exact classRecipe_le nonneg parts
  | block =>
    simp only [plan, a.kind_apply, form, planOfForm, composed_recipe] at parts ⊢
    exact blockRecipe_le nonneg parts
  | switch =>
    simp only [plan, a.kind_apply, form, planOfForm, composed_recipe] at parts ⊢
    exact switchRecipe_le nonneg parts
  | _ =>
    rw [plan_apply blocks (by simp [form]) (by simp [form]) (by simp [form]), Plan.map_map]
    exact composed_le (raises_plan n) nonneg parts n _

theorem compose_le_apply (levels : Nat) (blocks : InBlocks a n) :
    (compose (α := ℚ) levels n).score ≤ (compose levels (a.apply n)).score := by
  induction levels generalizing n with
  | zero => exact le_refl _
  | succ levels ih =>
    rw [compose_succ, compose_succ]
    refine composed_le_apply (compose_nonneg levels) blocks fun m hm => ih (blocks.of_mem ?_)
    exact nodesAll_plan_subset n (Node.nodes_subset_nodesAll hm m.mem_nodes_self)

/-! ### Statements -/

theorem declarationWeight_le_apply (blocks : InBlocks a n) :
    declarationWeight (α := ℚ) n ≤ declarationWeight (a.apply n) := by
  obtain ⟨added, more⟩ := members_apply (a := a) (n := n)
  obtain ⟨added', more'⟩ := parameterNodes_apply (a := a) (n := n)
  unfold declarationWeight
  rw [a.kind_apply]
  by_cases classBody : Form.ofKind n.kind = .classBody
  · have elsewhere : n.identity ≠ a.place := by
      refine blocks.elsewhere fun kind => ?_
      rw [kind] at classBody
      exact absurd classBody (by decide)
    have weight := weight_le_added (by norm_num : (0 : ℚ) ≤ 0.1) more
    have heritage := hasHeritage_map (a.reads_apply elsewhere) fun c _ => a.shows_apply c
    simp only [if_pos classBody, heritage]
    split_ifs <;> linarith
  simp only [if_neg classBody]
  by_cases interface : n.kind = "interface_declaration"
  · have weight := weight_le_added (by norm_num : (0 : ℚ) ≤ 0.05) more
    simp only [if_pos interface]
    linarith
  simp only [if_neg interface]
  by_cases function : n.kind = "function_declaration" ∨ n.kind = "generator_function_declaration"
  · have weight := weight_le_added (by norm_num : (0 : ℚ) ≤ 0.05) more'
    simp only [if_pos function]
    linarith
  · simp only [if_neg function]
    exact le_refl _

theorem statementWeight_le_apply (blocks : InBlocks a n) :
    statementWeight (α := ℚ) n ≤ statementWeight (a.apply n) := by
  simp only [statementWeight, weighed?, a.kind_apply, a.child?_apply]
  split
  · cases found : n.child? "declaration" with
    | none => exact le_refl _
    | some declared => exact declarationWeight_le_apply (blocks.child found)
  · exact declarationWeight_le_apply blocks

theorem contribution_nonneg (ceiling : Ceiling) {n : Node}
    (distinct : (n.nodes.map Node.identity).Nodup) : 0 ≤ contribution ceiling n := by
  rw [contribution, scoreAlone_eq_compose distinct (ceiling.leaves_levels 0 n)]
  exact mul_nonneg (compose_nonneg _ n) (statementWeight_nonneg n)

theorem contribution_le_apply (ceiling : Ceiling) (blocks : InBlocks a n)
    (distinct : ((n.nodes ++ a.node.nodes).map Node.identity).Nodup) :
    contribution ceiling n ≤ contribution ceiling (a.apply n) := by
  have alone : (n.nodes.map Node.identity).Nodup := by
    rw [List.map_append] at distinct
    exact (List.nodup_append.1 distinct).1
  obtain ⟨levels, leaves, leaves'⟩ := ceiling.leaves_both 0 n (a.apply n)
  rw [contribution, contribution, scoreAlone_eq_compose alone leaves,
    scoreAlone_eq_compose (a.distinct_apply distinct) leaves']
  exact mul_le_mul (compose_le_apply levels blocks) (statementWeight_le_apply blocks)
    (statementWeight_nonneg n) (compose_nonneg levels _)

end

/-! ### Files -/

/-- An addition that a tree admits below one of its nodes: the root or a block, while all nodes of
the tree and all nodes that are added have different identities. -/
structure Admits (t : Tree) (a : Addition) (container : Node) : Prop where
  distinct : ((t.root.nodes ++ a.node.nodes).map Node.identity).Nodup
  inside : container ∈ t.root.nodes
  place_eq : a.place = container.identity
  kind_eq : container = t.root ∨ container.kind = "statement_block"

namespace Admits

variable {t : Tree} {a : Addition} {container statement : Node}

theorem distinct_root (h : Admits t a container) : (t.root.nodes.map Node.identity).Nodup := by
  have distinct := h.distinct
  rw [List.map_append] at distinct
  exact (List.nodup_append.1 distinct).1

theorem distinct_added (h : Admits t a container) : (a.node.nodes.map Node.identity).Nodup := by
  have distinct := h.distinct
  rw [List.map_append] at distinct
  exact (List.nodup_append.1 distinct).2.1

theorem distinct_applyTree (h : Admits t a container) :
    ((a.applyTree t).root.nodes.map Node.identity).Nodup :=
  a.distinct_apply h.distinct

theorem distinct_statement (h : Admits t a container) (hs : statement ∈ t.root.children) :
    ((statement.nodes ++ a.node.nodes).map Node.identity).Nodup := by
  have inside := Node.mem_nodes_of_mem_children hs
  exact h.distinct.sublist (((Node.nodes_sublist t.root inside).append_right _).map _)

theorem identity_ne_root (h : Admits t a container) (hs : statement ∈ t.root.children)
    {m : Node} (hm : m ∈ statement.nodes) : m.identity ≠ t.root.identity := by
  have distinct := h.distinct_root
  rw [t.root.nodes_eq] at distinct
  have below : m ∈ Node.nodesAll t.root.branches :=
    Node.nodes_subset_nodesAll (List.mem_filter.1 hs).1 hm
  intro same
  exact (List.nodup_cons.1 distinct).1 (same ▸ List.mem_map_of_mem below)

/-- Below the root the addition is made to blocks only. -/
theorem inBlocks (h : Admits t a container) (hs : statement ∈ t.root.children) :
    InBlocks a statement := by
  intro m hm here
  have inside : m ∈ t.root.nodes :=
    (Node.nodes_sublist t.root (Node.mem_nodes_of_mem_children hs)).subset hm
  obtain rfl : m = container :=
    List.inj_on_of_nodup_map h.distinct_root inside h.inside (here.trans h.place_eq)
  rcases h.kind_eq with rfl | kind
  · exact absurd rfl (h.identity_ne_root hs hm)
  · exact kind

theorem score_le (h : Admits t a container) (ceiling : Ceiling) :
    (scoreFile (α := ℚ) ceiling t).score ≤ (scoreFile ceiling (a.applyTree t)).score := by
  have statements : (t.root.children.map (contribution ceiling)).sum
      ≤ ((t.root.children.map a.apply).map (contribution ceiling)).sum := by
    rw [List.map_map]
    exact List.sum_le_sum fun statement hs =>
      contribution_le_apply ceiling (h.inBlocks hs) (h.distinct_statement hs)
  have added : 0 ≤ ((a.addedBelow t.root).map (contribution ceiling)).sum := by
    rw [Addition.addedBelow]
    split
    · simpa using contribution_nonneg ceiling h.distinct_added
    · exact le_refl _
  rw [score_scoreFile h.distinct_root, score_scoreFile h.distinct_applyTree, a.root_applyTree,
    a.children_apply, List.map_append, List.sum_append]
  linarith

/-- An addition to the root leaves every statement as it is. -/
theorem children_applyTree (h : Admits t a t.root) :
    (a.applyTree t).root.children = t.root.children ++ [a.node] := by
  have same : t.root.children.map a.apply = t.root.children := by
    refine (List.map_congr_left fun statement hs => ?_).trans (List.map_id _)
    refine a.apply_eq_self statement fun m hm => ?_
    rw [h.place_eq]
    exact h.identity_ne_root hs hm
  rw [a.root_applyTree, a.children_apply, same, Addition.addedBelow, if_pos h.place_eq.symm]

theorem results_applyTree (h : Admits t a t.root) (ceiling : Ceiling) :
    statementResults (α := ℚ) ceiling (a.applyTree t)
      = statementResults ceiling t ++ [scoreAlone ceiling a.node] := by
  rw [statementResults_eq h.distinct_applyTree, statementResults_eq h.distinct_root,
    h.children_applyTree, List.map_append, List.map_singleton]

theorem score_applyTree (h : Admits t a t.root) (ceiling : Ceiling) :
    (scoreFile ceiling (a.applyTree t)).score
      = (scoreFile ceiling t).score + contribution ceiling a.node := by
  rw [score_scoreFile h.distinct_applyTree, score_scoreFile h.distinct_root, h.children_applyTree,
    List.map_append, List.sum_append, List.map_singleton, List.sum_singleton, add_assoc]

end Admits

/-- What is appended to the root or to a block, wherever the block stands in a tree without repeated
identities, does not lower the score of the file. Appended to the root it is one more statement: the
results of the others stay, and its weighted score is added. -/
theorem score_addition {t : Tree} {a : Addition} {container : Node} (h : Admits t a container)
    (ceiling : Ceiling) :
    (scoreFile (α := ℚ) ceiling t).score ≤ (scoreFile ceiling (a.applyTree t)).score
    ∧ (container = t.root →
        (scoreFile (α := ℚ) ceiling (a.applyTree t)).parts
            = (scoreFile ceiling t).parts ++ [scoreAlone ceiling a.node]
        ∧ (scoreFile ceiling (a.applyTree t)).score = (scoreFile ceiling t).score
            + statementWeight a.node * (scoreAlone (α := ℚ) ceiling a.node).score) := by
  refine ⟨h.score_le ceiling, ?_⟩
  rintro rfl
  refine ⟨h.results_applyTree ceiling, ?_⟩
  rw [h.score_applyTree ceiling, contribution, mul_comm]

def callBelow (place : Nat) : Addition where
  place
  node := sketch "expression_statement" none 11
    [sketch "call_expression" none 12 [sketch "identifier" (some "function") 13 []]]
  isVisible := by decide
  field_eq := rfl

theorem score_addition_callBelow :
    (Admits conditionThenSum (callBelow 3) conditionalCall.branches[1]
      ∧ (scoreFile (α := ℚ) (.level 5) conditionThenSum).score
          ≤ (scoreFile (.level 5) ((callBelow 3).applyTree conditionThenSum)).score)
    ∧ Admits conditionThenSum (callBelow 0) conditionThenSum.root
    ∧ (scoreFile (.level 5) ((callBelow 0).applyTree conditionThenSum)).score
        = (scoreFile (.level 5) conditionThenSum).score + statementWeight (callBelow 0).node
          * (scoreAlone (α := ℚ) (.level 5) (callBelow 0).node).score := by
  have distinct : ((conditionThenSum.root.nodes
      ++ (callBelow 0).node.nodes).map Node.identity).Nodup := by decide
  have inside : conditionalCall.branches[1] ∈ conditionThenSum.root.nodes := by
    have condition : conditionalCall ∈ conditionThenSum.root.branches := List.mem_cons_self
    rw [Node.nodes_eq, Node.nodesAll_eq_flatMap]
    exact List.mem_cons_of_mem _ (List.mem_flatMap.2
      ⟨_, condition, Node.mem_nodes_of_mem_branches (List.getElem_mem _)⟩)
  have block : Admits conditionThenSum (callBelow 3) conditionalCall.branches[1] :=
    ⟨distinct, inside, rfl, .inr rfl⟩
  have root : Admits conditionThenSum (callBelow 0) conditionThenSum.root :=
    ⟨distinct, Node.mem_nodes_self _, rfl, .inl rfl⟩
  exact ⟨⟨block, (score_addition block (.level 5)).1⟩, root,
    ((score_addition root (.level 5)).2 rfl).2⟩

end ComplexityMeter.Score
