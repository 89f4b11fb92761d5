import ComplexityMeter.Metrics.Snippet
import ComplexityMeter.Proofs.Score.View

/-!
# Metrics under the view

The rules that charge a node read it through the view alone, and so does the walk that finds the
nodes. A tree whose nodes all read like their images has the charges of its image.
-/

namespace ComplexityMeter.Metrics

open Syntax (Node Tree)
open Syntax.Node (Within)
open Score (Ceiling scoreAlone_map)

variable {α : Type} [Scalar α] {f : Node → Node} {n : Node}

/-! ### Writes -/

theorem isIdentifier_map (h : n.Shows f) : isIdentifier (f n) = isIdentifier n := by
  rw [isIdentifier, h.kind_eq, isIdentifier]

theorem nameKey?_map (h : n.Shows f) : nameKey? (f n) = nameKey? n := by
  rw [nameKey?, isIdentifier_map h, h.text_eq, nameKey?]

section

variable (h : n.ReadsAll f)
include h

theorem bind_child?_map {β : Type} {read : Node → Option β}
    (eq : ∀ m ∈ n.nodes, read (f m) = read m) (name : String) :
    ((f n).child? name).bind read = (n.child? name).bind read := by
  rw [h.self.child?_eq]
  cases found : n.child? name with
  | none => rfl
  | some m => exact eq m (Node.mem_nodes_of_child? found)

theorem targetKey?_map : targetKey? (f n) = targetKey? n := by
  have whole := h.self
  rw [targetKey?, targetKey?, isIdentifier_map whole.toShows, whole.text_eq, whole.kind_eq,
    whole.child?_eq, whole.child?_eq]
  cases object : n.child? "object" with
  | none => rfl
  | some o =>
    cases property : n.child? "property" with
    | none => rfl
    | some p =>
      have ho := (h.child object).self.toShows
      have hp := (h.child property).self.toShows
      simp only [Option.map_some, isIdentifier_map ho, ho.text_eq, hp.text_eq]

theorem writeKey?_map : writeKey? (f n) = writeKey? n := by
  have whole := h.self
  have names := bind_child?_map h fun m hm => nameKey?_map (h m hm).toShows
  have targets := bind_child?_map h fun m hm =>
    targetKey?_map (h.of_mem hm)
  simp only [writeKey?, whole.kind_eq, whole.token?_eq, names, targets]

theorem writes_map : writes (f n) = writes n := by
  rw [writes, h.walk_map, List.filterMap_map, writes]
  exact List.filterMap_congr fun m hm =>
    writeKey?_map (h.of_mem (n.walk_subset_nodes hm))

end

/-! ### Charges of a node -/

omit [Scalar α] in
theorem charge_map (h : n.Shows f) (category : Category) :
    charge (α := α) category (f n) = charge category n := by
  funext amount reason scored
  rw [charge, h.kind_eq, h.startLine_eq, charge]

section

variable (h : n.Reads f)
include h

theorem isLet_map : isLet (f n) = isLet n := by
  rw [isLet, h.kind_eq, h.token?_eq, isLet]

theorem declaresSymbol_map : declaresSymbol (f n) = declaresSymbol n := by
  rw [declaresSymbol, h.kind_eq, h.child?_eq, Option.isSome_map, declaresSymbol]

theorem assignmentCharges_map : assignmentCharges (α := α) (f n) = assignmentCharges n := by
  rw [assignmentCharges, h.kind_eq, charge_map h.toShows, assignmentCharges]

end

theorem mem_children_of_mem_letNames {d : Node × String} (hd : d ∈ letNames n) :
    d.1 ∈ n.children := by
  rw [letNames] at hd
  split at hd
  case isFalse => cases hd
  case isTrue =>
    obtain ⟨c, hc, declared⟩ := List.mem_filterMap.1 hd
    split at declared
    case isFalse => cases declared
    case isTrue =>
      obtain ⟨name, _, rfl⟩ := Option.map_eq_some_iff.1 declared
      exact hc

theorem within_bodyExpressions (function : Node) :
    Within (bodyExpressions function) [function] := by
  rw [bodyExpressions]
  cases found : function.child? "body" with
  | none => exact .nil _
  | some body =>
    have inside : Within [body] [function] := by
      simpa [found] using Score.within_child?_below function "body"
    dsimp only
    split
    · have firsts : Within (body.children.filterMap fun statement =>
          if statement.kind = "expression_statement" ∨ statement.kind = "return_statement" then
            statement.children.head?
          else none) body.children := by
        refine .filterMap fun statement _ => ?_
        split
        · exact Score.within_head statement
        · exact .nil _
      exact firsts.trans ((Score.within_children body).trans
        ((Score.within_branches body).trans inside))
    · exact inside

section

variable (h : n.ReadsAll f)
include h

theorem letNames_map : letNames (f n) = (letNames n).map fun d => (f d.1, d.2) := by
  have whole := h.self
  rw [letNames, letNames, isLet_map whole, whole.children_eq]
  split
  · rw [List.filterMap_map, List.map_filterMap]
    refine List.filterMap_congr fun d hd => ?_
    have declarator := h.visible hd
    rw [Function.comp_apply, declarator.self.kind_eq, declarator.self.child?_eq]
    split
    · cases found : d.child? "name" with
      | none => rfl
      | some name =>
        have shown := (declarator.child found).self.toShows
        cases plain : isIdentifier name <;>
          simp [Option.filter, isIdentifier_map shown, plain, shown.text_eq]
    · rfl
  · rfl

theorem mutabilityCharges_map (written : List String) :
    mutabilityCharges (α := α) written (f n) = mutabilityCharges written n := by
  rw [mutabilityCharges, letNames_map h, List.filterMap_map, mutabilityCharges]
  refine List.filterMap_congr fun d hd => ?_
  have shown := h.shown d.1 (mem_children_of_mem_letNames hd)
  simp only [Function.comp_apply, charge_map shown]

theorem scopeCharges_map : scopeCharges (α := α) (f n) = scopeCharges n := by
  have whole := h.self
  have symbols : symbolCount (f n) = symbolCount n := by
    rw [symbolCount, h.walk_map, List.countP_map, symbolCount]
    exact List.countP_congr fun m hm => by
      rw [Function.comp_apply, declaresSymbol_map (h m (n.walk_subset_nodes hm))]
  have scope : isScope (f n) = isScope n := by rw [isScope, whole.kind_eq, isScope]
  rw [scopeCharges, scope, symbols, charge_map whole.toShows, scopeCharges]

theorem parameterCount_map : parameterCount (f n) = parameterCount n := by
  have whole := h.self
  rw [parameterCount, parameterCount, whole.child?_eq, whole.child?_eq, Option.isSome_map]
  cases found : n.child? "parameters" with
  | none => rfl
  | some list =>
    have below := (h.child found).self.children_eq
    simp [below]

theorem bodyExpressions_map : bodyExpressions (f n) = (bodyExpressions n).map f := by
  have whole := h.self
  rw [bodyExpressions, bodyExpressions, whole.child?_eq]
  cases found : n.child? "body" with
  | none => rfl
  | some body =>
    have inside := h.child found
    simp only [Option.map_some, inside.self.kind_eq, inside.self.children_eq]
    split
    · rw [List.filterMap_map, List.map_filterMap]
      refine List.filterMap_congr fun statement hs => ?_
      have read := (inside.visible hs).self
      rw [Function.comp_apply, read.kind_eq, read.children_eq, List.head?_map]
      split <;> rfl
    · rfl

theorem functionCharges_map (ceiling : Ceiling) :
    functionCharges (α := α) ceiling (f n) = functionCharges ceiling n := by
  have whole := h.self
  have function : isFunction (f n) = isFunction n := by rw [isFunction, whole.kind_eq, isFunction]
  have scored : (bodyExpressions (f n)).map (Score.scoreAlone (α := α) ceiling)
      = (bodyExpressions n).map (Score.scoreAlone ceiling) := by
    rw [bodyExpressions_map h, List.map_map]
    exact List.map_congr_left fun m hm =>
      scoreAlone_map (h.of_mem ((within_bodyExpressions n).mem_nodes hm)) ceiling
  rw [functionCharges, function, scored, parameterCount_map h, charge_map whole.toShows,
    functionCharges]

theorem conditionCharges_map (ceiling : Ceiling) :
    conditionCharges (α := α) ceiling (f n) = conditionCharges ceiling n := by
  have whole := h.self
  have scored : ((f n).child? "condition").map (Score.scoreAlone (α := α) ceiling)
      = (n.child? "condition").map (Score.scoreAlone ceiling) := by
    rw [whole.child?_eq, Option.map_map]
    cases found : n.child? "condition" with
    | none => rfl
    | some m => exact congrArg some (scoreAlone_map (h.child found) ceiling)
  rw [conditionCharges, whole.kind_eq, scored, charge_map whole.toShows, conditionCharges]

theorem switchCharges_map : switchCharges (α := α) (f n) = switchCharges n := by
  have whole := h.self
  have body := Score.members_map whole.toShows fun m found => (h.child found).self
  have cases := Score.cases_map body fun c hc => (h c (Score.mem_nodes_of_mem_members hc)).toShows
  rw [switchCharges, whole.kind_eq, cases, List.length_map, charge_map whole.toShows, switchCharges]

theorem throwCharges_map (ceiling : Ceiling) :
    throwCharges (α := α) ceiling (f n) = throwCharges ceiling n := by
  have whole := h.self
  have scored : (f n).children.head?.map (Score.scoreAlone (α := α) ceiling)
      = n.children.head?.map (Score.scoreAlone ceiling) := by
    rw [whole.children_eq, List.head?_map, Option.map_map]
    cases found : n.children.head? with
    | none => rfl
    | some m =>
      exact congrArg some (scoreAlone_map (h.visible (List.mem_of_mem_head? found)) ceiling)
  rw [throwCharges, whole.kind_eq, scored, charge_map whole.toShows, throwCharges]

theorem guardedAmount_map : guardedAmount (α := α) (f n) = guardedAmount n := by
  have whole := h.self
  rw [guardedAmount, guardedAmount, whole.child?_eq, whole.child?_eq, whole.child?_eq,
    Option.isSome_map]
  cases body : n.child? "body" with
  | none =>
    cases handler : n.child? "handler" with
    | none => rfl
    | some m => simp [(h.child handler).self.child?_eq]
  | some block =>
    have shown := (h.child body).self
    cases handler : n.child? "handler" with
    | none => simp [shown.startLine_eq, shown.endLine_eq]
    | some m =>
      simp [shown.startLine_eq, shown.endLine_eq, (h.child handler).self.child?_eq]

theorem guardedCharges_map : guardedCharges (α := α) (f n) = guardedCharges n := by
  have whole := h.self
  rw [guardedCharges, whole.kind_eq, guardedAmount_map h, charge_map whole.toShows, guardedCharges]

/-! ### The metrics -/

theorem nodeCharges_map (ceiling : Ceiling) (written : List String) :
    nodeCharges (α := α) ceiling written (f n) = nodeCharges ceiling written n := by
  rw [nodeCharges, mutabilityCharges_map h, scopeCharges_map h,
    assignmentCharges_map h.self, functionCharges_map h, conditionCharges_map h,
    switchCharges_map h, throwCharges_map h, guardedCharges_map h, nodeCharges]

theorem charges_map (ceiling : Ceiling) : charges (α := α) ceiling (f n) = charges ceiling n := by
  rw [charges, h.walk_map, writes_map h, List.flatMap_map, charges]
  exact List.flatMap_congr fun m hm =>
    nodeCharges_map (h.of_mem (n.walk_subset_nodes hm)) _ _

end

theorem measure_map {t : Tree} (h : t.root.ReadsAll f) (ceiling : Ceiling) (least : α) :
    measure ceiling least { t with root := f t.root } = measure ceiling least t := by
  rw [measure, charges_map h, measure]

end ComplexityMeter.Metrics
