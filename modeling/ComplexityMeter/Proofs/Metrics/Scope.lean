import ComplexityMeter.Proofs.Metrics.Accounting
import ComplexityMeter.Proofs.Units

/-!
# Scopes and their symbols

The file and every block is charged a half for each symbol that is declared below it. Read from the
symbols this is a half for each scope that stands above one. A node that declares a symbol is no
scope itself, so all scopes that are charged for it are proper ancestors. Halves are added exactly,
also in a run.
-/

namespace ComplexityMeter.Metrics

open Syntax (Node Tree)
open Syntax.Node (LeadsTo)
open Score (Ceiling)

/-- The number of scopes above each walked node that declares a symbol, in the order of the walk. -/
def scopesAbove (root : Node) : List Nat :=
  ((root.lineage []).filter fun e => declaresSymbol e.1).map fun e => e.2.countP isScope

/-- The number of symbols below each walked scope, in the order of the walk. -/
def symbolsBelow (root : Node) : List Nat :=
  (root.walk.filter isScope).map symbolCount

theorem isScope_eq_false {n : Node} (h : declaresSymbol n = true) : isScope n = false := by
  by_contra scope
  rw [Bool.not_eq_false, isScope, Bool.or_eq_true, decide_eq_true_eq, decide_eq_true_eq] at scope
  rcases scope with kind | kind <;> simp [declaresSymbol, kind, symbolKinds] at h

/-- Counted at the scopes, there are as many pairs of a scope and a symbol below it as counted at
the symbols. -/
theorem sum_symbolsBelow (root : Node) : (symbolsBelow root).sum = (scopesAbove root).sum := by
  have counts := Node.sum_countP_walk isScope declaresSymbol [] root
  rw [List.countP_nil, Nat.zero_mul, Nat.add_zero] at counts
  have below : (symbolsBelow root).sum
      = (root.walk.map fun m => if isScope m then m.walk.countP declaresSymbol else 0).sum := by
    rw [symbolsBelow]
    induction root.walk with
    | nil => rfl
    | cons n rest ih => cases scope : isScope n <;> simp [scope, ih, symbolCount]
  have above : (scopesAbove root).sum
      = ((root.lineage []).map fun e =>
          if declaresSymbol e.1 then (e.1 :: e.2).countP isScope else 0).sum := by
    rw [scopesAbove]
    induction root.lineage [] with
    | nil => rfl
    | cons e rest ih =>
      cases declares : declaresSymbol e.1 with
      | false => simp [declares, ih]
      | true => simp [declares, ih, isScope_eq_false declares]
  rw [below, above, counts]

/-- The scopes are charged from the left, in any arithmetic. -/
theorem score_scope {α : Type} [Scalar α] (ceiling : Ceiling) (least : α) (t : Tree) :
    (measure ceiling least t).score .scope
      = ((symbolsBelow t.root).map fun symbols : ℕ => (symbols : α) * 0.5).foldl (· + ·) 0.0 := by
  change accumulate 0.0 _ = _
  rw [filter_charges, accumulate, symbolsBelow, List.map_map, List.foldl_map]
  generalize (0.0 : α) = start
  induction t.root.walk generalizing start with
  | nil => rfl
  | cons n rest ih =>
    rw [List.flatMap_cons, List.foldl_append, ih, categoryCharges, scopeCharges]
    cases scope : isScope n <;> simp [scope, charge]

theorem score_scope_rat (ceiling : Ceiling) (least : ℚ) (t : Tree) :
    (measure ceiling least t).score .scope = 1 / 2 * ((scopesAbove t.root).sum : ℕ) := by
  have zero : (0.0 : ℚ) = 0 := by norm_num
  have half : (0.5 : ℚ) = 1 / 2 := by norm_num
  rw [score_scope, Scalar.foldl_add_rat (·), List.map_id', List.sum_map_mul_right,
    ← Nat.cast_list_sum, sum_symbolsBelow, zero, zero_add, half, mul_comm]

/-- What a run adds up is the exact sum of halves, unless there are more of them than a double can
count. -/
theorem place?_score_scope (ceiling : Ceiling) (least : Number) {t : Tree}
    (small : (scopesAbove t.root).sum < 2 ^ 53) :
    ((measure ceiling least t).score .scope).place?
      = some (toLex (0, (1 / 2 * ((scopesAbove t.root).sum : ℕ) : ℚ))) := by
  have half : HoldsUnits 0.5 1 (-1) := rfl
  rw [← sum_symbolsBelow] at small ⊢
  have amounts : List.Forall₂ (fun b l => b.CountsUnits l (-1))
      ((symbolsBelow t.root).map fun symbols : ℕ => (symbols : Number) * 0.5)
      (symbolsBelow t.root) := by
    rw [List.forall₂_map_left_iff, List.forall₂_same]
    intro symbols listed
    have few : symbols < 2 ^ 53 := (List.single_le_sum (by simp) symbols listed).trans_lt small
    obtain ⟨x, amount, hx⟩ := Number.exists_mul_float (Number.countsUnits_natCast few) half
      (by rwa [mul_one]) (by decide)
    exact amount ▸ Number.countsUnits_float (by simpa using hx)
  rw [score_scope, Number.place?_foldl_add amounts small (by decide)]
  simp [zpow_neg, mul_comm]

/-- Every symbol is charged a half for each scope above it, in exact numbers and also in the doubles
of a run as long as these can count the halves. What stands above a walked node leads from it to the
root, child by child, and all nodes of the walk are looked at in their order, so no scope is missed
and none is charged for a symbol that it does not contain. -/
theorem scope_score_by_symbols (t : Tree) :
    (∀ ceiling (least : ℚ), (measure ceiling least t).score .scope
      = 1 / 2 * ((scopesAbove t.root).sum : ℕ))
    ∧ ((scopesAbove t.root).sum < 2 ^ 53 → ∀ ceiling (least : Number),
      ((measure ceiling least t).score .scope).place?
        = some (toLex (0, (1 / 2 * ((scopesAbove t.root).sum : ℕ) : ℚ))))
    ∧ (t.root.lineage []).map Prod.fst = t.root.walk
    ∧ ∀ e ∈ t.root.lineage [], LeadsTo t.root e.1 e.2 ∧ ∀ a ∈ e.2, e.1 ∈ a.walk := by
  refine ⟨fun ceiling least => score_scope_rat ceiling least t,
    fun small ceiling least => place?_score_scope ceiling least small,
    Node.map_fst_lineage [] t.root, fun e he => ?_⟩
  have leads : LeadsTo t.root e.1 e.2 := Node.leadsTo_of_mem_lineage ⟨.singleton _, rfl⟩ he
  exact ⟨leads, leads.mem_walk⟩

/-- A variable in a file, one in a block of the file, and a parameter in a block of the block. -/
def nestedScopes : Tree :=
  let node (kind : String) (field : Option String) (branches : List Node) : Node :=
    ⟨kind, true, false, false, field, "", 0, 0, 0, branches⟩
  let declared := node "variable_declarator" none []
  let function := node "arrow_function" none [node "identifier" (some "parameter") []]
  ⟨node "program" none [declared, node "comment" none [declared],
    node "statement_block" none [declared, node "statement_block" none [function]]],
    "nested.ts", .typescript⟩

theorem scope_score_by_symbols_nestedScopes :
    scopesAbove nestedScopes.root = [1, 2, 3]
    ∧ (measure (.level 5) (3 : ℚ) nestedScopes).score .scope = 3
    ∧ ((measure (.level 5) (3.0 : Number) nestedScopes).score .scope).place?
      = some (toLex (0, 3)) := by
  have above : scopesAbove nestedScopes.root = [1, 2, 3] := by decide +kernel
  obtain ⟨exact, double, -⟩ := scope_score_by_symbols nestedScopes
  have half : (1 / 2 * (([1, 2, 3] : List ℕ).sum : ℕ) : ℚ) = 3 := by norm_num
  rw [above] at exact double
  exact ⟨above, (exact (.level 5) 3).trans half,
    (double (by decide) (.level 5) 3.0).trans (by rw [half])⟩

end ComplexityMeter.Metrics
