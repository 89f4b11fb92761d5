import ComplexityMeter.Metrics.Comparison
import ComplexityMeter.Proofs.Metrics.Accounting

/-!
# Metrics of a continued snippet

One more subtree behind all others adds its nodes to the end of the walk and its writes to the end
of the writes. No node that was walked before contributes less for it: reassigned variables are
charged for the further writes, the file as a scope for the further symbols, and nothing else
depends on what stands elsewhere.
-/

namespace ComplexityMeter.Metrics

open Syntax (Node Tree)
open Score (Ceiling)

/-- A program that goes on where another one ends, with one more subtree. -/
structure Continues (longer t : Tree) (s : Node) : Prop where
  kind_eq : t.root.kind = "program"
  longer_kind_eq : longer.root.kind = "program"
  branches_eq : longer.root.branches = t.root.branches ++ [s]

def walkAdded (s : Node) : List Node :=
  ([s].filter Node.isVisible).flatMap Node.walk

theorem walkAdded_subset (s : Node) : walkAdded s ⊆ s.nodes := by
  intro m hm
  obtain ⟨c, hc, walked⟩ := List.mem_flatMap.1 hm
  obtain rfl := List.mem_singleton.1 (List.mem_of_mem_filter hc)
  exact c.walk_subset_nodes walked

theorem writeKey?_program {n : Node} (h : n.kind = "program") : writeKey? n = none := by
  simp [writeKey?, h]

/-! ### What one node contributes -/

/-- All that a node contributes to a category, where some names have been written. -/
def amountAt (ceiling : Ceiling) (written : List String) (category : Category) (n : Node) : ℚ :=
  ((contributions ceiling written n category).map Contribution.amount).sum

theorem amountAt_nonneg (ceiling : Ceiling) {n : Node} (inOrder : InOrder n)
    (written : List String) (category : Category) : 0 ≤ amountAt ceiling written category n :=
  List.sum_nonneg (List.forall_mem_map.2 (amount_nonneg ceiling inOrder written category))

/-- A reassignable variable contributes the number of its writes, which may be none. -/
theorem amountAt_mutability (ceiling : Ceiling) (written : List String) (n : Node) :
    amountAt ceiling written .mutability n
      = ((letNames n).map fun d => (written.count d.2 : ℚ)).sum := by
  rw [amountAt, contributions]
  induction letNames n with
  | nil => rfl
  | cons d rest ih =>
    rw [List.map_cons, List.sum_cons, ← ih]
    by_cases known : d.2 ∈ written
    · rw [List.filter_cons_of_pos (by simpa using known)]
      rfl
    · rw [List.filter_cons_of_neg (by simpa using known), List.count_eq_zero.2 known,
        Nat.cast_zero, zero_add]

theorem amountAt_mono (ceiling : Ceiling) {written more : List String} (h : written.Sublist more)
    (category : Category) (n : Node) :
    amountAt ceiling written category n ≤ amountAt ceiling more category n := by
  cases category with
  | mutability =>
    rw [amountAt_mutability, amountAt_mutability]
    exact List.sum_le_sum fun d _ => Nat.cast_le.2 (h.count_le d.2)
  | _ => exact le_rfl

/-- A file contributes nothing but what it has as a scope. -/
theorem amountAt_program (ceiling : Ceiling) (written : List String) (category : Category)
    {n : Node} (h : n.kind = "program") :
    amountAt ceiling written category n
      = if category = .scope then (symbolCount n : ℚ) * (1 / 2) else 0 := by
  have form : isFunction n = false := by
    rw [isFunction, h]
    decide
  cases category <;> simp [amountAt, contributions, letNames, isLet, isScope, form, h]

/-- A category scores what the nodes of the walk contribute, one after the other. -/
theorem score_eq_sum_walk (ceiling : Ceiling) (least : ℚ) (t : Tree) (category : Category) :
    (measure ceiling least t).score category
      = (t.root.walk.map (amountAt ceiling (writes t.root) category)).sum := by
  rw [score_measure, allContributions, List.map_flatMap, List.flatMap_def, List.sum_flatten,
    List.map_map]
  rfl

/-! ### The longer program -/

namespace Continues

variable {longer t : Tree} {s : Node} (h : Continues longer t s)
include h

theorem children_eq : longer.root.children = t.root.children ++ [s].filter Node.isVisible := by
  rw [Node.children, h.branches_eq, List.filter_append, Node.children]

theorem walk_eq :
    longer.root.walk = longer.root :: (t.root.children.flatMap Node.walk ++ walkAdded s) := by
  rw [Node.walk_eq, h.children_eq, List.flatMap_append, walkAdded]

theorem writes_sublist : (writes t.root).Sublist (writes longer.root) := by
  rw [writes, writes, h.walk_eq, Node.walk_eq t.root,
    List.filterMap_cons_none (writeKey?_program h.kind_eq),
    List.filterMap_cons_none (writeKey?_program h.longer_kind_eq), List.filterMap_append]
  exact List.sublist_append_left _ _

theorem symbolCount_le : symbolCount t.root ≤ symbolCount longer.root := by
  have kinds : declaresSymbol t.root = declaresSymbol longer.root := by
    simp [declaresSymbol, h.kind_eq, h.longer_kind_eq]
  rw [symbolCount, symbolCount, h.walk_eq, Node.walk_eq t.root, List.countP_cons,
    List.countP_cons, List.countP_append, kinds]
  omega

theorem score_le (ceiling : Ceiling) (least : ℚ) (inOrder : InOrder s) (category : Category) :
    (measure ceiling least t).score category ≤ (measure ceiling least longer).score category := by
  have files : amountAt ceiling (writes t.root) category t.root
      ≤ amountAt ceiling (writes longer.root) category longer.root := by
    rw [amountAt_program ceiling _ category h.kind_eq,
      amountAt_program ceiling _ category h.longer_kind_eq]
    split
    · exact mul_le_mul_of_nonneg_right (Nat.cast_le.2 h.symbolCount_le) (by norm_num)
    · exact le_rfl
  have before : ((t.root.children.flatMap Node.walk).map
        (amountAt ceiling (writes t.root) category)).sum
      ≤ ((t.root.children.flatMap Node.walk).map
        (amountAt ceiling (writes longer.root) category)).sum :=
    List.sum_le_sum fun n _ => amountAt_mono ceiling h.writes_sublist category n
  have added : 0 ≤ ((walkAdded s).map (amountAt ceiling (writes longer.root) category)).sum :=
    List.sum_nonneg (List.forall_mem_map.2 fun n hn =>
      amountAt_nonneg ceiling (inOrder.of_mem (walkAdded_subset s hn)) _ category)
  rw [score_eq_sum_walk, score_eq_sum_walk, h.walk_eq, Node.walk_eq t.root, List.map_cons,
    List.map_cons, List.map_append, List.sum_cons, List.sum_cons, List.sum_append]
  linarith

end Continues

/-- Where no weight is negative, one number of a record grows with its categories. -/
theorem scalar_mono {weights : Weights ℚ} (nonneg : ∀ category, 0 ≤ weights category)
    {m m' : Record ℚ} (h : ∀ category, m.score category ≤ m'.score category) :
    scalar weights m ≤ scalar weights m' := by
  rw [scalar, scalar, Scalar.sum_rat, Scalar.sum_rat]
  exact List.sum_le_sum fun category _ =>
    mul_le_mul_of_nonneg_right (h category) (nonneg category)

/-- A program never looks simpler for going on: with one more subtree behind all others, of which no
node ends before it starts, no category scores less, so neither do the total and the one number
under weights that are not negative. -/
theorem metrics_continued (ceiling : Ceiling) (least : ℚ) {longer t : Tree} {s : Node}
    (continues : Continues longer t s) (inOrder : InOrder s) :
    let m := measure ceiling least t
    let m' := measure ceiling least longer
    (∀ category, m.score category ≤ m'.score category)
    ∧ m.total ≤ m'.total
    ∧ ∀ weights, (∀ category, 0 ≤ weights category) → scalar weights m ≤ scalar weights m' := by
  intro m m'
  have scores := continues.score_le ceiling least inOrder
  refine ⟨scores, ?_, fun weights nonneg => scalar_mono nonneg scores⟩
  calc m.total = 1 + (Category.all.map m.score).sum := total_measure ceiling least t
    _ ≤ 1 + (Category.all.map m'.score).sum :=
      add_le_add_right (List.sum_le_sum fun category _ => scores category) 1
    _ = m'.total := (total_measure ceiling least longer).symm

def furtherBlock : Node :=
  let name (text : String) (field : String) : Node :=
    ⟨"identifier", true, false, false, some field, text, 3, 3, 0, []⟩
  let increment : Node :=
    ⟨"update_expression", true, false, false, none, "x++", 3, 3, 0, [name "x" "argument"]⟩
  let declarator : Node :=
    ⟨"variable_declarator", true, false, false, none, "y", 3, 3, 0, [name "y" "name"]⟩
  ⟨"statement_block", true, false, false, none, "", 3, 4, 0, [increment, declarator]⟩

/-- The increment below raises the price of the variable above, and the file has the other variable
among its symbols as well as the block has. -/
def longerCounter : Tree :=
  { counter with
    root := { counter.root with endRow := 4, branches := counter.root.branches ++ [furtherBlock] } }

theorem metrics_continued_counter :
    Continues longerCounter counter furtherBlock ∧ InOrder furtherBlock
    ∧ Category.all.map (measure (.level 5) (3 : ℚ) counter).score = [3, 1 / 2, 0, 0, 0, 0]
    ∧ Category.all.map (measure (.level 5) (3 : ℚ) longerCounter).score = [4, 3 / 2, 0, 0, 0, 0]
    ∧ scalar Weights.default (measure (.level 5) (3 : ℚ) counter)
      ≤ scalar Weights.default (measure (.level 5) (3 : ℚ) longerCounter) := by
  have continues : Continues longerCounter counter furtherBlock := ⟨rfl, rfl, rfl⟩
  have inOrder : InOrder furtherBlock := by decide +kernel
  have weights : ∀ category, (0 : ℚ) ≤ Weights.default category := by
    intro category
    cases category <;> norm_num [Weights.default]
  exact ⟨continues, inOrder, by decide +kernel, by decide +kernel,
    (metrics_continued (.level 5) 3 continues inOrder).2.2 Weights.default weights⟩

end ComplexityMeter.Metrics
