import ComplexityMeter.Proofs.Metrics.Ceiling
import ComplexityMeter.Proofs.Score.Dominance
import ComplexityMeter.Proofs.Syntax.Walk

/-!
# Accounting of the metrics

Every category has a price list: what a node contributes to it, and on whose account. The charges
that a node makes under a category are its contributions, so a category scores the sum of the
contributions over the walk, and the total is one more than all categories together. A hotspot is a
contribution that stands out. As long as no node ends before it starts, no contribution is negative,
so a hotspot never scores more than its category.
-/

namespace ComplexityMeter.Metrics

open Syntax (Node Tree)
open Score (Ceiling)

/-- What is added under a category, and the node on whose account it is added. -/
structure Contribution where
  node : Node
  amount : ℚ

/-! ### Price lists -/

def expressionPrice (ceiling : Ceiling) (expression : Node) : ℚ :=
  (Score.scoreAlone ceiling expression).score

/-- A function costs its body, one and its expressions, and its parameters, once for every two units
of the body and at least once. -/
def functionPrice (ceiling : Ceiling) (function : Node) : ℚ :=
  let body := 1 + ((bodyExpressions function).map (expressionPrice ceiling)).sum
  max 1 ⌈body / 2⌉ * (body + parameterCount function)

/-- A guarded block costs a half for every line. -/
def blockPrice (block : Node) : ℚ :=
  ((block.endLine - block.startLine + 1 : ℤ) : ℚ) * (1 / 2)

/-- A handler costs two, and a half more if it binds what it catches. -/
def handlerPrice (handler : Node) : ℚ :=
  if (handler.child? "parameter").isSome then 5 / 2 else 2

/-- A try statement costs one, its block, its handler, and one and a half for a finalizer. -/
def guardedPrice (guarded : Node) : ℚ :=
  1 + (guarded.child? "body").elim 0 blockPrice + (guarded.child? "handler").elim 0 handlerPrice
    + (guarded.child? "finalizer").elim 0 fun _ => 3 / 2

/-- What a node contributes to a category, where some names have been written. -/
def contributions (ceiling : Ceiling) (written : List String) (n : Node) :
    Category → List Contribution
  | .mutability =>
    ((letNames n).filter fun d => d.2 ∈ written).map fun d => ⟨d.1, written.count d.2⟩
  | .scope => if isScope n then [⟨n, symbolCount n * (1 / 2)⟩] else []
  | .assignment => if n.kind = "assignment_expression" then [⟨n, 1⟩] else []
  | .function => if isFunction n then [⟨n, functionPrice ceiling n⟩] else []
  | .conditional =>
    if n.kind = "if_statement" then
      [⟨n, (n.child? "condition").elim 0 (expressionPrice ceiling)⟩]
    else if n.kind = "switch_statement" then [⟨n, (Score.cases n).length * (1 / 2)⟩]
    else []
  | .exception =>
    if n.kind = "throw_statement" then
      [⟨n, 1 + n.children.head?.elim 0 (expressionPrice ceiling)⟩]
    else if n.kind = "try_statement" then [⟨n, guardedPrice n⟩]
    else []

/-- What all nodes of a walk contribute to a category. -/
def allContributions (ceiling : Ceiling) (root : Node) (category : Category) : List Contribution :=
  root.walk.flatMap fun n => contributions ceiling (writes root) n category

/-! ### Charges by category -/

section

variable {α : Type}

def categoryCharges [Scalar α] (ceiling : Ceiling) (written : List String) (n : Node) :
    Category → List (Charge α)
  | .mutability => mutabilityCharges written n
  | .scope => scopeCharges n
  | .assignment => assignmentCharges n
  | .function => functionCharges ceiling n
  | .conditional => conditionCharges ceiling n ++ switchCharges n
  | .exception => throwCharges ceiling n ++ guardedCharges n

theorem filter_of_category {own : Category} {cs : List (Charge α)}
    (h : ∀ c ∈ cs, c.category = own) (category : Category) :
    cs.filter (fun c => decide (c.category = category)) = if category = own then cs else [] := by
  split
  case isTrue same => exact List.filter_eq_self.2 fun c hc => by simp [h c hc, same]
  case isFalse other =>
    exact List.filter_eq_nil_iff.2 fun c hc => by simpa [h c hc] using Ne.symm other

theorem filter_rule (rule : Prop) [Decidable rule] (own : Category) (n : Node) (amount : α)
    (reason : Option (Reason α)) (scored : List (Score.Result α)) (category : Category) :
    (if rule then [charge own n amount reason scored] else []).filter
        (fun c => decide (c.category = category))
      = if category = own then if rule then [charge own n amount reason scored] else [] else [] :=
  filter_of_category (by split <;> simp [charge]) category

theorem filter_mutabilityCharges [Scalar α] (written : List String) (n : Node)
    (category : Category) :
    (mutabilityCharges (α := α) written n).filter (fun c => decide (c.category = category))
      = if category = .mutability then mutabilityCharges written n else [] := by
  refine filter_of_category (fun c hc => ?_) category
  obtain ⟨d, -, charged⟩ := List.mem_filterMap.1 hc
  dsimp only at charged
  split at charged
  · cases charged
  · exact (Option.some.inj charged) ▸ rfl

theorem filter_nodeCharges [Scalar α] (ceiling : Ceiling) (written : List String) (n : Node)
    (category : Category) :
    (nodeCharges (α := α) ceiling written n).filter (fun c => decide (c.category = category))
      = categoryCharges ceiling written n category := by
  simp only [nodeCharges, scopeCharges, assignmentCharges, functionCharges, conditionCharges,
    switchCharges, throwCharges, guardedCharges, List.filter_append, filter_mutabilityCharges,
    filter_rule]
  cases category <;>
    simp [categoryCharges, scopeCharges, assignmentCharges, functionCharges, conditionCharges,
      switchCharges, throwCharges, guardedCharges]

theorem filter_charges [Scalar α] (ceiling : Ceiling) (root : Node) (category : Category) :
    (charges (α := α) ceiling root).filter (fun c => decide (c.category = category))
      = root.walk.flatMap fun n => categoryCharges ceiling (writes root) n category := by
  rw [charges, List.filter_flatMap]
  exact List.flatMap_congr fun n _ => filter_nodeCharges ceiling (writes root) n category

end

/-! ### Charges as contributions -/

/-- The charge adds the amount of a contribution, and its hotspot, if it has one, is the node on
whose account that is. -/
structure Charge.StandsFor (k : Charge ℚ) (c : Contribution) : Prop where
  amount_eq : k.amount = c.amount
  hotspot : ∀ spot ∈ k.hotspot,
    spot.kind = c.node.kind ∧ spot.line = c.node.startLine ∧ spot.score = c.amount

theorem charge_standsFor {amount price : ℚ} (h : amount = price) (category : Category) (n : Node)
    (reason : Option (Reason ℚ)) (scored : List (Score.Result ℚ)) :
    (charge category n amount reason scored).StandsFor ⟨n, price⟩ where
  amount_eq := h
  hotspot spot hs := by
    obtain ⟨_, -, rfl⟩ := Option.map_eq_some_iff.1 hs
    exact ⟨rfl, rfl, h⟩

section

variable (ceiling : Ceiling) (written : List String) (n : Node)

theorem mutabilityCharges_standFor :
    List.Forall₂ Charge.StandsFor (mutabilityCharges written n)
      (contributions ceiling written n .mutability) := by
  rw [mutabilityCharges, contributions]
  induction letNames n with
  | nil => exact .nil
  | cons d rest ih =>
    by_cases known : d.2 ∈ written
    · have counted : written.count d.2 ≠ 0 := (List.count_pos_iff.2 known).ne'
      rw [List.filterMap_cons_some (by exact if_neg counted),
        List.filter_cons_of_pos (by simpa using known)]
      exact .cons (charge_standsFor rfl _ _ _ _) ih
    · have uncounted : written.count d.2 = 0 := List.count_eq_zero.2 known
      rw [List.filterMap_cons_none (by exact if_pos uncounted),
        List.filter_cons_of_neg (by simpa using known)]
      exact ih

theorem functionAmount_eq :
    functionAmount (bodyComplexity ((bodyExpressions n).map (Score.scoreAlone ceiling)))
        (parameterCount n) = functionPrice ceiling n := by
  have scores : Score.scoreSum ((bodyExpressions n).map (Score.scoreAlone ceiling))
      = ((bodyExpressions n).map (expressionPrice ceiling)).sum := by
    rw [Score.scoreSum, Scalar.sum_rat, List.map_map]
    rfl
  have half : (2.0 : ℚ) = 2 := by norm_num
  rw [bodyComplexity_eq, scores, functionAmount, functionPrice, half]
  push_cast
  rfl

theorem expressionCost_eq (found : Option Node) :
    expressionCost (found.map (Score.scoreAlone ceiling))
      = found.elim 0 (expressionPrice ceiling) := by
  cases found with
  | none => norm_num [expressionCost]
  | some e => rfl

theorem guardedAmount_eq : guardedAmount n = guardedPrice n := by
  rw [guardedAmount, guardedPrice]
  cases n.child? "body" <;> cases n.child? "handler" <;> cases n.child? "finalizer" <;>
    norm_num [blockPrice, handlerPrice]
  all_goals split_ifs <;> ring

/-- What the rules of a category charge at a node are its contributions. -/
theorem categoryCharges_standFor (category : Category) :
    List.Forall₂ Charge.StandsFor (categoryCharges ceiling written n category)
      (contributions ceiling written n category) := by
  have half : (0.5 : ℚ) = 1 / 2 := by norm_num
  have one : (1.0 : ℚ) = 1 := by norm_num
  cases category with
  | mutability => exact mutabilityCharges_standFor ceiling written n
  | scope =>
    rw [categoryCharges, scopeCharges, contributions, half]
    split
    · exact .cons (charge_standsFor rfl _ _ _ _) .nil
    · exact .nil
  | assignment =>
    rw [categoryCharges, assignmentCharges, contributions]
    split
    · exact .cons (charge_standsFor one _ _ _ _) .nil
    · exact .nil
  | function =>
    rw [categoryCharges, functionCharges, contributions]
    split
    · exact .cons (charge_standsFor (functionAmount_eq ceiling n) _ _ _ _) .nil
    · exact .nil
  | conditional =>
    rw [categoryCharges, conditionCharges, switchCharges, contributions, half]
    by_cases condition : n.kind = "if_statement"
    · rw [if_pos condition, if_pos condition, if_neg (by simp [condition])]
      exact .cons (charge_standsFor (expressionCost_eq ceiling _) _ _ _ _) .nil
    · rw [if_neg condition, if_neg condition]
      split
      · exact .cons (charge_standsFor rfl _ _ _ _) .nil
      · exact .nil
  | exception =>
    rw [categoryCharges, throwCharges, guardedCharges, contributions]
    by_cases throw : n.kind = "throw_statement"
    · rw [if_pos throw, if_pos throw, if_neg (by simp [throw])]
      refine .cons (charge_standsFor ?_ _ _ _ _) .nil
      rw [expressionCost_eq, one]
    · rw [if_neg throw, if_neg throw]
      split
      · exact .cons (charge_standsFor (guardedAmount_eq n) _ _ _ _) .nil
      · exact .nil

end

section

variable (ceiling : Ceiling) (root : Node) (category : Category)

/-- The charges of a tree under a category are its contributions. -/
theorem charges_standFor :
    List.Forall₂ Charge.StandsFor
      ((charges ceiling root).filter fun c => decide (c.category = category))
      (allContributions ceiling root category) := by
  rw [filter_charges, allContributions]
  refine List.rel_flatMap (R := Eq) (List.forall₂_eq_eq_eq ▸ rfl) ?_
  rintro n _ rfl
  exact categoryCharges_standFor ceiling (writes root) n category

theorem map_amount_filter_charges :
    ((charges ceiling root).filter fun c => decide (c.category = category)).map Charge.amount
      = (allContributions ceiling root category).map Contribution.amount :=
  List.forall₂_eq_eq_eq ▸ List.forall₂_map_left_iff.2 (List.forall₂_map_right_iff.2
    ((charges_standFor ceiling root category).imp fun _ _ stands => stands.amount_eq))

end

/-! ### Scores and totals -/

section

variable (least : ℚ) (cs : List (Charge ℚ))

theorem score_recordOf (category : Category) :
    (recordOf least cs).score category
      = ((cs.filter fun c => decide (c.category = category)).map Charge.amount).sum := by
  have zero : (0.0 : ℚ) = 0 := by norm_num
  change accumulate 0.0 _ = _
  rw [accumulate_eq, zero, zero_add]

theorem sum_categories :
    (Category.all.map fun category =>
        ((cs.filter fun c => decide (c.category = category)).map Charge.amount).sum).sum
      = (cs.map Charge.amount).sum := by
  induction cs with
  | nil => simp
  | cons c rest ih =>
    rw [List.map_cons, List.sum_cons, ← ih]
    cases own : c.category <;> simp [Category.all, own] <;> ring

theorem total_recordOf :
    (recordOf least cs).total = 1 + (Category.all.map (recordOf least cs).score).sum := by
  have one : (1.0 : ℚ) = 1 := by norm_num
  have scores := funext (score_recordOf least cs)
  rw [scores, sum_categories, ← one, ← accumulate_eq]
  rfl

end

theorem score_measure (ceiling : Ceiling) (least : ℚ) (t : Tree) (category : Category) :
    (measure ceiling least t).score category
      = ((allContributions ceiling t.root category).map Contribution.amount).sum := by
  rw [← map_amount_filter_charges]
  exact score_recordOf least (charges ceiling t.root) category

/-- The total is one more than all categories together. -/
theorem total_measure (ceiling : Ceiling) (least : ℚ) (t : Tree) :
    (measure ceiling least t).total
      = 1 + (Category.all.map (measure ceiling least t).score).sum :=
  total_recordOf least (charges ceiling t.root)

/-! ### No negative contributions -/

/-- No node of the tree ends before the row it starts on. -/
def InOrder (n : Node) : Prop :=
  ∀ m ∈ n.nodes, m.startRow ≤ m.endRow

instance (n : Node) : Decidable (InOrder n) :=
  inferInstanceAs (Decidable (∀ m ∈ n.nodes, m.startRow ≤ m.endRow))

theorem InOrder.of_mem {n m : Node} (h : InOrder n) (hm : m ∈ n.nodes) : InOrder m :=
  fun o ho => h o (Node.mem_nodes_trans hm ho)

section

variable (ceiling : Ceiling)

theorem one_le_expressionPrice (expression : Node) : 1 ≤ expressionPrice ceiling expression :=
  ((Score.inductive_covers ceiling).score expression rfl _ (Score.Result.mem_preorder_self _)).one_le

theorem elim_expressionPrice_nonneg (found : Option Node) :
    0 ≤ found.elim 0 (expressionPrice ceiling) := by
  cases found with
  | none => exact le_rfl
  | some expression => exact zero_le_one.trans (one_le_expressionPrice ceiling expression)

theorem functionPrice_nonneg (function : Node) : 0 ≤ functionPrice ceiling function := by
  have expressions : 0 ≤ ((bodyExpressions function).map (expressionPrice ceiling)).sum :=
    List.sum_nonneg (List.forall_mem_map.2 fun e _ =>
      zero_le_one.trans (one_le_expressionPrice ceiling e))
  have once : (0 : ℚ) ≤ (max 1 ⌈(1 + ((bodyExpressions function).map
      (expressionPrice ceiling)).sum) / 2⌉ : ℤ) :=
    Int.cast_nonneg (zero_le_one.trans (le_max_left _ _))
  rw [functionPrice]
  push_cast at once
  positivity

theorem guardedPrice_nonneg {guarded : Node} (inOrder : InOrder guarded) :
    0 ≤ guardedPrice guarded := by
  have block : 0 ≤ (guarded.child? "body").elim 0 blockPrice := by
    cases found : guarded.child? "body" with
    | none => exact le_rfl
    | some block =>
      have rows := inOrder block (Node.mem_nodes_of_child? found)
      have lines : 0 ≤ block.endLine - block.startLine + 1 := by
        rw [Node.endLine, Node.startLine]
        omega
      exact mul_nonneg (Int.cast_nonneg lines) (by norm_num)
  have handler : 0 ≤ (guarded.child? "handler").elim 0 handlerPrice := by
    cases guarded.child? "handler" with
    | none => exact le_rfl
    | some handler =>
      rw [Option.elim_some, handlerPrice]
      split <;> norm_num
  have finalizer : 0 ≤ (guarded.child? "finalizer").elim (0 : ℚ) fun _ => 3 / 2 := by
    cases guarded.child? "finalizer" <;> norm_num
  rw [guardedPrice]
  positivity

theorem forall_mem_ite_contribution {P : Contribution → Prop} {p : Prop} [Decidable p]
    {k : Contribution} {others : List Contribution} (hk : P k) (h : ∀ o ∈ others, P o) :
    ∀ o ∈ if p then [k] else others, P o := by
  split
  · simpa using hk
  · exact h

theorem amount_nonneg {n : Node} (inOrder : InOrder n) (written : List String)
    (category : Category) : ∀ k ∈ contributions ceiling written n category, 0 ≤ k.amount := by
  have none : ∀ k ∈ ([] : List Contribution), 0 ≤ k.amount := by simp
  cases category with
  | mutability => exact List.forall_mem_map.2 fun d _ => Nat.cast_nonneg _
  | scope => exact forall_mem_ite_contribution (by positivity) none
  | assignment => exact forall_mem_ite_contribution zero_le_one none
  | function => exact forall_mem_ite_contribution (functionPrice_nonneg ceiling n) none
  | conditional =>
    exact forall_mem_ite_contribution (elim_expressionPrice_nonneg ceiling _)
      (forall_mem_ite_contribution (by positivity) none)
  | exception =>
    exact forall_mem_ite_contribution
      (add_nonneg zero_le_one (elim_expressionPrice_nonneg ceiling _))
      (forall_mem_ite_contribution (guardedPrice_nonneg inOrder) none)

theorem amount_allContributions_nonneg {root : Node} (inOrder : InOrder root)
    (category : Category) : ∀ k ∈ allContributions ceiling root category, 0 ≤ k.amount := by
  intro k hk
  obtain ⟨n, hn, hk⟩ := List.mem_flatMap.1 hk
  exact amount_nonneg ceiling (inOrder.of_mem (root.walk_subset_nodes hn)) _ category k hk

end

/-! ### Hotspots as contributions -/

theorem kind_of_mem_letNames {n : Node} {d : Node × String} (hd : d ∈ letNames n) :
    d.1.kind = "variable_declarator" := by
  rw [letNames] at hd
  split at hd
  case isFalse => cases hd
  case isTrue =>
    obtain ⟨c, -, declared⟩ := List.mem_filterMap.1 hd
    split at declared
    case isFalse => cases declared
    case isTrue kind =>
      obtain ⟨_, -, rfl⟩ := Option.map_eq_some_iff.1 declared
      exact kind

/-- A node contributes on its own account, but a reassigned variable on that of its declarator. -/
theorem node_of_mem_contributions (ceiling : Ceiling) (written : List String) (n : Node)
    (category : Category) : ∀ k ∈ contributions ceiling written n category,
      if category = .mutability then k.node ∈ n.children ∧ k.node.kind = "variable_declarator"
      else k.node = n := by
  have none : ∀ k ∈ ([] : List Contribution), k.node = n := by simp
  cases category with
  | mutability =>
    refine List.forall_mem_map.2 fun d hd => ?_
    have listed := List.mem_of_mem_filter hd
    exact ⟨mem_children_of_mem_letNames listed, kind_of_mem_letNames listed⟩
  | scope => exact forall_mem_ite_contribution rfl none
  | assignment => exact forall_mem_ite_contribution rfl none
  | function => exact forall_mem_ite_contribution rfl none
  | conditional => exact forall_mem_ite_contribution rfl (forall_mem_ite_contribution rfl none)
  | exception => exact forall_mem_ite_contribution rfl (forall_mem_ite_contribution rfl none)

/-- A hotspot shows a contribution of a tree to a category: its amount, and kind and line of the
walked node on whose account it is made. -/
structure Hotspot.Shows (spot : Hotspot ℚ) (ceiling : Ceiling) (root : Node) (category : Category)
    (k : Contribution) : Prop where
  mem_allContributions : k ∈ allContributions ceiling root category
  mem_walk : k.node ∈ root.walk
  declarator : category = .mutability → k.node.kind = "variable_declarator"
  kind_eq : spot.kind = k.node.kind
  line_eq : spot.line = k.node.startLine
  score_eq : spot.score = k.amount

theorem exists_shows (ceiling : Ceiling) (least : ℚ) (t : Tree) {spot : Hotspot ℚ}
    (hs : spot ∈ (measure ceiling least t).hotspots) :
    ∃ category k, spot.Shows ceiling t.root category k := by
  have kept : spot ∈ (charges ceiling t.root).filterMap Charge.hotspot :=
    List.mem_of_mem_filter ((List.mergeSort_perm _ _).mem_iff.1 hs)
  obtain ⟨c, hc, seen⟩ := List.mem_filterMap.1 kept
  have chosen : c ∈ (charges ceiling t.root).filter fun o => decide (o.category = c.category) :=
    List.mem_filter.2 ⟨hc, decide_eq_true rfl⟩
  obtain ⟨k, hk, stands⟩ :=
    exists_of_mem_right (charges_standFor ceiling t.root c.category).flip chosen
  obtain ⟨n, hn, made⟩ := List.mem_flatMap.1 hk
  have account := node_of_mem_contributions ceiling _ n c.category k made
  obtain ⟨kind, line, score⟩ := stands.hotspot spot seen
  refine ⟨c.category, k, hk, ?_, ?_, kind, line, score⟩
  · split at account
    · exact Node.mem_walk_of_mem_children hn account.1
    · exact account ▸ hn
  · exact fun mutability => (if_pos mutability ▸ account).2

/-- In the metrics of a tree of which no node ends before it starts, the total is one more than all
categories together, and a category scores the sum of its contributions, none of them negative.
Every hotspot shows one of these contributions, so it does not score more than the category, nor
more than the total without its one. -/
theorem metrics_accounted (ceiling : Ceiling) (least : ℚ) {t : Tree} (inOrder : InOrder t.root) :
    let m := measure ceiling least t
    m.total = 1 + (Category.all.map m.score).sum
    ∧ (∀ category, 0 ≤ m.score category
        ∧ m.score category = ((allContributions ceiling t.root category).map Contribution.amount).sum
        ∧ ∀ k ∈ allContributions ceiling t.root category, 0 ≤ k.amount)
    ∧ ∀ spot ∈ m.hotspots, ∃ category k, spot.Shows ceiling t.root category k
        ∧ spot.score ≤ m.score category ∧ spot.score ≤ m.total - 1 := by
  intro m
  have total : m.total = 1 + (Category.all.map m.score).sum := total_measure ceiling least t
  have amounts category : ∀ x ∈ (allContributions ceiling t.root category).map Contribution.amount,
      0 ≤ x :=
    List.forall_mem_map.2 (amount_allContributions_nonneg ceiling inOrder category)
  have score category : m.score category = _ := score_measure ceiling least t category
  have nonneg category : 0 ≤ m.score category := score category ▸ List.sum_nonneg (amounts category)
  refine ⟨total, fun category => ⟨nonneg category, score category,
    amount_allContributions_nonneg ceiling inOrder category⟩, fun spot hs => ?_⟩
  obtain ⟨category, k, shows⟩ := exists_shows ceiling least t hs
  have below : spot.score ≤ m.score category := by
    rw [shows.score_eq, score]
    exact List.single_le_sum (amounts category) _ (List.mem_map_of_mem shows.mem_allContributions)
  have whole : m.score category ≤ (Category.all.map m.score).sum :=
    List.single_le_sum (List.forall_mem_map.2 fun c _ => nonneg c) _
      (List.mem_map_of_mem (Category.mem_all category))
  exact ⟨category, k, shows, below, by linarith⟩

/-- A variable that is declared on the second line and incremented three times. -/
def counter : Tree :=
  let leaf (kind text : String) (field : Option String) : Node :=
    ⟨kind, true, false, false, field, text, 1, 1, 0, []⟩
  let declarator : Node :=
    ⟨"variable_declarator", true, false, false, none, "x", 1, 1, 0,
      [leaf "identifier" "x" (some "name")]⟩
  let declaration : Node :=
    ⟨"lexical_declaration", true, false, false, none, "let x", 1, 1, 0,
      [leaf "let" "let" (some "kind"), declarator]⟩
  let increment : Node :=
    ⟨"update_expression", true, false, false, none, "x++", 2, 2, 0,
      [leaf "identifier" "x" (some "argument")]⟩
  ⟨⟨"program", true, false, false, none, "", 0, 2, 0,
    [declaration, increment, increment, increment]⟩, "counter.ts", .typescript⟩

theorem metrics_accounted_counter :
    InOrder counter.root
    ∧ (measure (.level 5) (3 : ℚ) counter).total = 9 / 2
    ∧ (measure (.level 5) (3 : ℚ) counter).hotspots.map (fun spot => (spot.kind, spot.line, spot.score))
      = [("variable_declarator", 2, 3)]
    ∧ (Category.all.map (measure (.level 5) (3 : ℚ) counter).score).sum = 7 / 2
    ∧ ∀ spot ∈ (measure (.level 5) (3 : ℚ) counter).hotspots, spot.score ≤ 7 / 2 := by
  have inOrder : InOrder counter.root := by decide +kernel
  have total : (measure (.level 5) (3 : ℚ) counter).total = 9 / 2 := by decide +kernel
  obtain ⟨categories, -, below⟩ := metrics_accounted (.level 5) 3 inOrder
  refine ⟨inOrder, total, by decide +kernel, by linarith, fun spot hs => ?_⟩
  obtain ⟨_, _, _, _, least⟩ := below spot hs
  linarith

end ComplexityMeter.Metrics
