import ComplexityMeter.Proofs.Metrics.View
import ComplexityMeter.Proofs.Score.Ceiling

/-!
# Metrics under different depth ceilings

Only the charges for functions, conditions and thrown values depend on the depth ceiling, and they
grow with it. The nodes that are charged are the same under every ceiling, so every category grows.
-/

namespace ComplexityMeter.Metrics

open Syntax (Node Tree)
open Syntax.Node (Within)
open Score (Ceiling Result scoreAlone scoreFile)

theorem distinct_of_within {n p : Node} {ps : List Node}
    (distinct : (n.nodes.map Node.identity).Nodup) (within : Within ps [n]) (hp : p ∈ ps) :
    (p.nodes.map Node.identity).Nodup :=
  Node.distinct_of_mem distinct (within.mem_nodes hp)

/-! ### Growing charges -/

/-- Two charges under one category, the first not above the second. -/
structure Charge.AtMost (c c' : Charge ℚ) : Prop where
  category_eq : c.category = c'.category
  amount_le : c.amount ≤ c'.amount

theorem Charge.AtMost.refl (c : Charge ℚ) : c.AtMost c :=
  ⟨rfl, le_refl _⟩

theorem forall₂_atMost_refl (cs : List (Charge ℚ)) : List.Forall₂ Charge.AtMost cs cs :=
  List.forall₂_same.2 fun c _ => .refl c

theorem append_atMost {a a' b b' : List (Charge ℚ)} (ha : List.Forall₂ Charge.AtMost a a')
    (hb : List.Forall₂ Charge.AtMost b b') : List.Forall₂ Charge.AtMost (a ++ b) (a' ++ b') :=
  List.rel_append ha hb

theorem flatMap_atMost {ns : List Node} {f g : Node → List (Charge ℚ)}
    (h : ∀ n ∈ ns, List.Forall₂ Charge.AtMost (f n) (g n)) :
    List.Forall₂ Charge.AtMost (ns.flatMap f) (ns.flatMap g) := by
  induction ns with
  | nil => exact .nil
  | cons n rest ih =>
    rw [List.flatMap_cons, List.flatMap_cons]
    exact append_atMost (h n List.mem_cons_self)
      (ih fun m hm => h m (List.mem_cons_of_mem n hm))

theorem accumulate_eq (start : ℚ) (cs : List (Charge ℚ)) :
    accumulate start cs = start + (cs.map Charge.amount).sum :=
  Scalar.foldl_add_rat Charge.amount start cs

theorem accumulate_le {cs cs' : List (Charge ℚ)} (h : List.Forall₂ Charge.AtMost cs cs')
    (start : ℚ) : accumulate start cs ≤ accumulate start cs' := by
  have amounts : List.Forall₂ (· ≤ ·) (cs.map Charge.amount) (cs'.map Charge.amount) := by
    rw [List.forall₂_map_left_iff, List.forall₂_map_right_iff]
    exact h.imp fun _ _ le => le.amount_le
  rw [accumulate_eq, accumulate_eq]
  exact add_le_add_right amounts.sum_le_sum start

theorem filter_atMost {cs cs' : List (Charge ℚ)} (h : List.Forall₂ Charge.AtMost cs cs')
    (category : Category) :
    List.Forall₂ Charge.AtMost (cs.filter fun c => decide (c.category = category))
      (cs'.filter fun c => decide (c.category = category)) := by
  refine List.rel_filter (fun c c' le => ?_) h
  simp [le.category_eq]

/-- The amount for a function grows with its body, also where the number of calls is rounded. -/
theorem functionAmount_le {body more : ℚ} (nonneg : 0 ≤ body) (h : body ≤ more)
    (parameters : Nat) : functionAmount body parameters ≤ functionAmount more parameters := by
  have half : body / 2.0 ≤ more / 2.0 := div_le_div_of_nonneg_right h (by norm_num)
  have calls : max 1 ⌈body / 2.0⌉ ≤ max 1 ⌈more / 2.0⌉ :=
    max_le_max (le_refl 1) (Int.ceil_mono half)
  have once : 0 ≤ max 1 ⌈more / 2.0⌉ := zero_le_one.trans (le_max_left _ _)
  exact mul_le_mul (Int.cast_le.2 calls) (add_le_add_left h _) (by positivity)
    (Int.cast_nonneg once)

section

variable {ceiling higher : Ceiling} {n : Node}

theorem bodyComplexity_eq (scored : List (Result ℚ)) :
    bodyComplexity scored = 1 + Score.scoreSum scored := by
  rw [bodyComplexity, Scalar.foldl_add_rat, Score.scoreSum, Scalar.sum_rat]
  norm_num

theorem functionCharges_atMost (h : ceiling ≤ higher)
    (distinct : (n.nodes.map Node.identity).Nodup) :
    List.Forall₂ Charge.AtMost (functionCharges ceiling n) (functionCharges higher n) := by
  unfold functionCharges
  split
  · refine .cons ⟨rfl, functionAmount_le ?_ ?_ _⟩ .nil
    all_goals simp only [bodyComplexity_eq]
    · have scores : 0 ≤ Score.scoreSum ((bodyExpressions n).map (scoreAlone (α := ℚ) ceiling)) := by
        refine Score.scoreSum_nonneg ?_
        rw [List.forall_mem_map]
        intro e he
        have alone := distinct_of_within distinct (within_bodyExpressions n) he
        rw [Score.scoreAlone_eq_compose alone (ceiling.leaves_levels 0 e)]
        exact Score.compose_nonneg _ e
      linarith
    · refine add_le_add_right (Score.scoreSum_map_le fun e he => ?_) 1
      exact Score.scoreAlone_le h (distinct_of_within distinct (within_bodyExpressions n) he)
  · exact .nil

theorem expressionCost_le (h : ceiling ≤ higher) (distinct : (n.nodes.map Node.identity).Nodup)
    {found : Option Node} (within : Within found.toList [n]) :
    expressionCost (found.map (scoreAlone (α := ℚ) ceiling))
      ≤ expressionCost (found.map (scoreAlone higher)) := by
  cases found with
  | none => exact le_refl _
  | some e => exact Score.scoreAlone_le h (distinct_of_within distinct within List.mem_cons_self)

theorem conditionCharges_atMost (h : ceiling ≤ higher)
    (distinct : (n.nodes.map Node.identity).Nodup) :
    List.Forall₂ Charge.AtMost (conditionCharges ceiling n) (conditionCharges higher n) := by
  unfold conditionCharges
  split
  · exact .cons ⟨rfl, expressionCost_le h distinct (Score.within_child?_below n "condition")⟩ .nil
  · exact .nil

theorem throwCharges_atMost (h : ceiling ≤ higher)
    (distinct : (n.nodes.map Node.identity).Nodup) :
    List.Forall₂ Charge.AtMost (throwCharges ceiling n) (throwCharges higher n) := by
  unfold throwCharges
  split
  · refine .cons ⟨rfl, ?_⟩ .nil
    exact add_le_add_right (expressionCost_le h distinct (Score.within_head n)) _
  · exact .nil

theorem nodeCharges_atMost (h : ceiling ≤ higher) (distinct : (n.nodes.map Node.identity).Nodup)
    (written : List String) :
    List.Forall₂ Charge.AtMost (nodeCharges ceiling written n) (nodeCharges higher written n) := by
  have functions := append_atMost
    (forall₂_atMost_refl (mutabilityCharges written n ++ scopeCharges n ++ assignmentCharges n))
    (functionCharges_atMost h distinct)
  have conditions := append_atMost functions (conditionCharges_atMost h distinct)
  have switches := append_atMost conditions (forall₂_atMost_refl (switchCharges n))
  have throws := append_atMost switches (throwCharges_atMost h distinct)
  exact append_atMost throws (forall₂_atMost_refl (guardedCharges n))

theorem charges_atMost (h : ceiling ≤ higher) {root : Node}
    (distinct : (root.nodes.map Node.identity).Nodup) :
    List.Forall₂ Charge.AtMost (charges ceiling root) (charges higher root) := by
  refine flatMap_atMost fun n hn => nodeCharges_atMost h ?_ (writes root)
  exact Node.distinct_of_mem distinct (root.walk_subset_nodes hn)

theorem score_measure_le (h : ceiling ≤ higher) {t : Tree}
    (distinct : (t.root.nodes.map Node.identity).Nodup) (least : ℚ) (category : Category) :
    (measure ceiling least t).score category ≤ (measure higher least t).score category :=
  accumulate_le (filter_atMost (charges_atMost h distinct) category) 0.0

end

/-- Under a higher ceiling, a tree without repeated identities has at least the same score as a
file, and as a snippet at least the same score in every category. And whatever its identities, a
file of which no node is cut off has the very same result under every higher ceiling. -/
theorem scores_under_higher_ceiling {ceiling higher : Ceiling} (h : ceiling ≤ higher) (t : Tree) :
    ((t.root.nodes.map Node.identity).Nodup →
      (scoreFile (α := ℚ) ceiling t).score ≤ (scoreFile higher t).score
        ∧ ∀ least category, (measure (α := ℚ) ceiling least t).score category
            ≤ (measure higher least t).score category)
    ∧ ∀ (α : Type) [Scalar α],
        (∀ node ∈ (scoreFile (α := α) ceiling t).preorder, node.isTruncated = false) →
          scoreFile (α := α) higher t = scoreFile ceiling t :=
  ⟨fun distinct => ⟨Score.score_scoreFile_le h distinct, score_measure_le h distinct⟩,
    fun _ _ whole => Score.scoreFile_eq_of_isWhole h whole⟩

def conditionTwice : Tree :=
  ⟨Score.sketch "program" none 0 [Score.conditionalCall, Score.conditionalCall], "twice.ts",
    .typescript⟩

theorem scores_under_higher_ceiling_conditionTwice :
    (Ceiling.level 2 ≤ .level 4
      ∧ (Score.conditionThenSum.root.nodes.map Node.identity).Nodup
      ∧ (scoreFile (α := ℚ) (.level 2) Score.conditionThenSum).score
          ≤ (scoreFile (.level 4) Score.conditionThenSum).score)
    ∧ Ceiling.level 4 ≤ .unlimited
    ∧ (∀ node ∈ (scoreFile (α := ℚ) (.level 4) conditionTwice).preorder,
        node.isTruncated = false)
    ∧ scoreFile (α := ℚ) .unlimited conditionTwice = scoreFile (.level 4) conditionTwice := by
  have distinct : (Score.conditionThenSum.root.nodes.map Node.identity).Nodup := by decide
  have order : Ceiling.level 2 ≤ .level 4 := by decide
  have above : Ceiling.level 4 ≤ .unlimited := by decide
  have whole : ∀ node ∈ (scoreFile (α := ℚ) (.level 4) conditionTwice).preorder,
      node.isTruncated = false := by decide +kernel
  exact ⟨⟨order, distinct, ((scores_under_higher_ceiling order Score.conditionThenSum).1 distinct).1⟩, above,
    whole, (scores_under_higher_ceiling above conditionTwice).2 ℚ whole⟩

end ComplexityMeter.Metrics
