import Mathlib.Algebra.Order.BigOperators.Group.List
import ComplexityMeter.Proofs.Exact
import ComplexityMeter.Proofs.Score.Composition

/-!
# Scores in exact numbers

No step of a rule lowers a score: what parts score is added, weights are not negative, and factors
are at least one. So every node scores at least the base score, and the score of a node can only
grow with the scores of its parts and with the levels left.
-/

namespace ComplexityMeter.Score

open Syntax (Node Tree)

/-! ### Steps that raise a score -/

/-- A step that never lowers a score, as long as no part scores less than nothing. -/
def Term.Raises {β : Type} : Term ℚ β → Prop
  | .sum _ => True
  | .scaled factor _ => 0 ≤ factor
  | .plus weight => 0 ≤ weight
  | .times factor => 1 ≤ factor

def Plan.Raises {β : Type} : Plan ℚ β → Prop
  | .recipe r => ∀ t ∈ r.terms, t.Raises
  | .inner _ => True

theorem scoreSum_nonneg {results : List (Result ℚ)} (h : ∀ r ∈ results, 0 ≤ r.score) :
    0 ≤ scoreSum results := by
  rw [scoreSum, Scalar.sum_rat]
  exact List.sum_nonneg (by simpa using h)

theorem scoreSum_append (a b : List (Result ℚ)) :
    scoreSum (a ++ b) = scoreSum a + scoreSum b := by
  simp [scoreSum, Scalar.sum_rat]

theorem scoreSum_map_le {f g : Node → Result ℚ} {ps : List Node}
    (h : ∀ p ∈ ps, (f p).score ≤ (g p).score) :
    scoreSum (ps.map f) ≤ scoreSum (ps.map g) := by
  simp only [scoreSum, Scalar.sum_rat, List.map_map]
  exact List.sum_le_sum h

section

variable {f g : Node → Result ℚ} {terms : List (Term ℚ Node)} {x y : ℚ}

theorem le_reached (raises : ∀ t ∈ terms, t.Raises) (nonneg : ∀ p, 0 ≤ (f p).score)
    (hx : 0 ≤ x) : x ≤ reached f x terms := by
  induction terms generalizing x with
  | nil => exact le_refl x
  | cons t rest ih =>
    have positive (ps : List Node) : 0 ≤ scoreSum (ps.map f) :=
      scoreSum_nonneg (by simpa using fun p _ => nonneg p)
    have raise : t.Raises := raises t List.mem_cons_self
    have step : x ≤ reached f x [t] := by
      cases t with
      | sum ps => exact le_add_of_nonneg_right (positive ps)
      | scaled factor ps => exact le_add_of_nonneg_right (mul_nonneg (positive ps) raise)
      | plus weight => exact le_add_of_nonneg_right raise
      | times factor => exact le_mul_of_one_le_right hx raise
    have others := ih (fun t ht => raises t (List.mem_cons_of_mem _ ht)) (hx.trans step)
    rw [← List.singleton_append, reached_append]
    exact step.trans others

theorem reached_le (raises : ∀ t ∈ terms, t.Raises) (nonneg : ∀ p, 0 ≤ (f p).score)
    (parts : ∀ p ∈ terms.flatMap Term.parts, (f p).score ≤ (g p).score) (hx : 0 ≤ x)
    (hxy : x ≤ y) : reached f x terms ≤ reached g y terms := by
  induction terms generalizing x y with
  | nil => exact hxy
  | cons t rest ih =>
    have raise : t.Raises := raises t List.mem_cons_self
    have sums (ps : List Node) (h : ps ⊆ t.parts) :
        scoreSum (ps.map f) ≤ scoreSum (ps.map g) :=
      scoreSum_map_le fun p hp => parts p (List.mem_append_left _ (h hp))
    have step : reached f x [t] ≤ reached g y [t] := by
      cases t with
      | sum ps => exact add_le_add hxy (sums ps (List.Subset.refl ps))
      | scaled factor ps =>
        exact add_le_add hxy (mul_le_mul_of_nonneg_right (sums ps (List.Subset.refl ps)) raise)
      | plus weight => exact add_le_add_left hxy weight
      | times factor => exact mul_le_mul_of_nonneg_right hxy (zero_le_one.trans raise)
    have start : 0 ≤ reached f x [t] := hx.trans (le_reached (by simpa using raise) nonneg hx)
    rw [← List.singleton_append, reached_append, reached_append]
    exact ih (fun t ht => raises t (List.mem_cons_of_mem _ ht))
      (fun p hp => parts p (List.mem_append_right _ hp)) start step

end

/-! ### The rules -/

theorem operatorWeight_nonneg (operator : Option String) :
    0 ≤ operatorWeight (α := ℚ) operator := by
  unfold operatorWeight
  split
  · norm_num
  · split_ifs <;> norm_num

theorem unaryWeight_nonneg (n : Node) : 0 ≤ unaryWeight (α := ℚ) n := by
  unfold unaryWeight
  split_ifs <;> norm_num

theorem one_le_argumentFactor (count : Nat) : 1 ≤ argumentFactor (α := ℚ) count := by
  unfold argumentFactor Scalar.atLeast
  split_ifs <;> linarith

theorem one_le_mutabilityFactor (count : Nat) : 1 ≤ mutabilityFactor (α := ℚ) count := by
  unfold mutabilityFactor
  have : (0 : ℚ) ≤ 0.5 * count := by positivity
  linarith

theorem loopWeight_nonneg (loop : Loop) : 0 ≤ loopWeight (α := ℚ) loop := by
  cases loop <;> norm_num [loopWeight]

theorem raises_caseTerms (clause : Node) : ∀ t ∈ caseTerms (α := ℚ) clause, t.Raises := by
  rw [caseTerms]
  cases clause.child? "value" with
  | none => simp [Term.Raises]
  | some test => norm_num [Term.Raises]

theorem raises_handlerTerms (n : Node) : ∀ t ∈ handlerTerms (α := ℚ) n, t.Raises := by
  rw [handlerTerms]
  cases n.child? "handler" with
  | none => simp
  | some handler => by_cases h : bindsCaught n <;> norm_num [h, Term.Raises]

theorem raises_finalizerTerms (n : Node) : ∀ t ∈ finalizerTerms (α := ℚ) n, t.Raises := by
  rw [finalizerTerms]
  cases n.child? "finalizer" with
  | none => simp
  | some finalizer => norm_num [Term.Raises]

theorem raises_cases (clauses : List Node) :
    ∀ t ∈ clauses.flatMap (caseTerms (α := ℚ)), t.Raises := by
  intro t ht
  obtain ⟨clause, _, ht⟩ := List.mem_flatMap.1 ht
  exact raises_caseTerms clause t ht

theorem raises_plan (n : Node) : (plan (α := ℚ) n).Raises := by
  rw [plan]
  cases Form.ofKind n.kind with
  | binary =>
    simpa [planOfForm, Plan.Raises, binaryRecipe, Term.Raises] using operatorWeight_nonneg _
  | unary => simpa [planOfForm, Plan.Raises, unaryRecipe, Term.Raises] using unaryWeight_nonneg n
  | call =>
    simpa [planOfForm, Plan.Raises, callRecipe, Term.Raises]
      using zero_le_one.trans (one_le_argumentFactor _)
  | declaration =>
    by_cases mutable : isMutable n
    · simpa [planOfForm, Plan.Raises, declarationRecipe, Term.Raises, mutable]
        using one_le_mutabilityFactor _
    · simp [planOfForm, Plan.Raises, declarationRecipe, Term.Raises, mutable]
  | conditional => norm_num [planOfForm, Plan.Raises, conditionalRecipe, Term.Raises]
  | loop loop =>
    simpa [planOfForm, Plan.Raises, loopRecipe, Term.Raises] using loopWeight_nonneg loop
  | switch =>
    have weight : (0 : ℚ) ≤ 0.5 * ((cases n).length : ℚ) := by positivity
    simp only [planOfForm, Plan.Raises, switchRecipe, List.cons_append, List.forall_mem_cons,
      List.forall_mem_append]
    exact ⟨trivial, raises_cases (cases n), weight, by simp⟩
  | guarded =>
    simp only [planOfForm, Plan.Raises, guardedRecipe, List.cons_append, List.forall_mem_cons,
      List.forall_mem_append]
    exact ⟨trivial, raises_handlerTerms n, raises_finalizerTerms n⟩
  | block =>
    have weight : (0 : ℚ) ≤ 0.1 * (n.children.length : ℚ) := by positivity
    simpa [planOfForm, Plan.Raises, blockRecipe, Term.Raises] using weight
  | transparent =>
    dsimp only [planOfForm]
    cases n.children <;> simp [Plan.Raises]
  | _ =>
    simp [planOfForm, Plan.Raises, partsOnly, objectRecipe, arrayRecipe, classRecipe, Term.Raises]

/-! ### Nodes -/

/-- A node whose parts score more scores more by the same plan. -/
theorem composed_le {f g : Node → Result ℚ} {p : Plan ℚ Node} (raises : p.Raises)
    (nonneg : ∀ m, 0 ≤ (f m).score) (parts : ∀ m ∈ p.parts, (f m).score ≤ (g m).score)
    (n n' : Node) : (composed n (p.map f)).score ≤ (composed n' (p.map g)).score := by
  cases p with
  | recipe r =>
    rw [composed_recipe, composed_recipe]
    exact reached_le raises nonneg parts (by norm_num) (le_refl _)
  | inner m => exact parts m List.mem_cons_self

theorem score_compose_zero (n : Node) : (compose (α := ℚ) 0 n).score = 1 := by
  norm_num [compose, truncated, resultOf]

theorem one_le_compose (levels : Nat) (n : Node) : 1 ≤ (compose (α := ℚ) levels n).score := by
  induction levels generalizing n with
  | zero => exact (score_compose_zero n).ge
  | succ levels ih =>
    have raises := raises_plan n
    rw [compose_succ]
    cases h : plan (α := ℚ) n with
    | recipe r =>
      rw [h] at raises
      rw [composed_recipe]
      have nonneg (p : Node) : 0 ≤ (compose (α := ℚ) levels p).score := zero_le_one.trans (ih p)
      have start : (1 : ℚ) ≤ 1.0 := by norm_num
      exact start.trans (le_reached raises nonneg (zero_le_one.trans start))
    | inner m => exact ih m

theorem compose_nonneg (levels : Nat) (n : Node) : 0 ≤ (compose (α := ℚ) levels n).score :=
  zero_le_one.trans (one_le_compose levels n)

theorem compose_le {levels more : Nat} (h : levels ≤ more) (n : Node) :
    (compose (α := ℚ) levels n).score ≤ (compose more n).score := by
  induction levels generalizing more n with
  | zero =>
    exact (score_compose_zero n).trans_le (one_le_compose more n)
  | succ levels ih =>
    obtain ⟨more, rfl⟩ : ∃ k, more = k + 1 := ⟨more - 1, by omega⟩
    rw [compose_succ, compose_succ]
    exact composed_le (raises_plan n) (compose_nonneg levels) (fun m _ => ih (by omega) m) n n

/-! ### Files -/

theorem weightedTotal_eq (weighted : List (ℚ × ℚ)) :
    weightedTotal weighted = 1 + (weighted.map fun pair => pair.1 * pair.2).sum := by
  rw [weightedTotal, Scalar.foldl_add_rat]
  norm_num

/-- What a statement adds to the score of its file. -/
def contribution (ceiling : Ceiling) (statement : Node) : ℚ :=
  (scoreAlone ceiling statement).score * statementWeight statement

/-- The score of a file is the base score and what each statement adds. -/
theorem score_scoreFile {t : Tree} (distinct : (t.root.nodes.map Node.identity).Nodup)
    (ceiling : Ceiling) :
    (scoreFile ceiling t).score = 1 + (t.root.children.map (contribution ceiling)).sum := by
  simp only [scoreFile, statementResults_eq distinct, weightedTotal_eq, List.map_map,
    List.zip_map', Function.comp_def]
  rfl

theorem declarationWeight_nonneg (n : Node) : 0 ≤ declarationWeight (α := ℚ) n := by
  unfold declarationWeight
  dsimp only
  split_ifs <;> positivity

theorem statementWeight_nonneg (statement : Node) : 0 ≤ statementWeight (α := ℚ) statement := by
  rw [statementWeight]
  cases weighed? statement with
  | none => norm_num
  | some n => exact declarationWeight_nonneg n

end ComplexityMeter.Score
