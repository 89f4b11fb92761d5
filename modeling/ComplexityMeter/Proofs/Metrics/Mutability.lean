import ComplexityMeter.Proofs.Metrics.Continuation
import ComplexityMeter.Proofs.Units

/-!
# Writes and the variables they reach

Every reassignable variable is charged the number of writes that are counted under its name. Read
from the writes this is one for each variable of that name, wherever it is declared, so a write to a
name that no such variable has is free, and the order of the file does not matter. Writes are
counted exactly, also in a run.
-/

namespace ComplexityMeter.Metrics

open Syntax (Node Tree)
open Score (Ceiling)

/-! ### Writes -/

/-- A node writes to what is known by a key: to a name or to a property of a name by an assignment,
and to a name by a compound assignment or by a step up or down. -/
inductive WritesTo : Node → String → Prop
  | name {n target : Node} : n.kind = "assignment_expression" → n.child? "left" = some target →
      target.kind = "identifier" → WritesTo n target.text
  | property {n target object property : Node} : n.kind = "assignment_expression" →
      n.child? "left" = some target → target.kind = "member_expression" →
      target.child? "object" = some object → object.kind = "identifier" →
      target.child? "property" = some property → WritesTo n (object.text ++ "." ++ property.text)
  | compound {n target : Node} {operator : String} : n.kind = "augmented_assignment_expression" →
      n.token? "operator" = some operator → operator ∈ ["+=", "-=", "*=", "/=", "%="] →
      n.child? "left" = some target → target.kind = "identifier" → WritesTo n target.text
  | step {n target : Node} : n.kind = "update_expression" → n.child? "argument" = some target →
      target.kind = "identifier" → WritesTo n target.text

theorem nameKey?_eq_some_iff {target : Node} {key : String} :
    nameKey? target = some key ↔ target.kind = "identifier" ∧ target.text = key := by
  simp [nameKey?, isIdentifier]

theorem targetKey?_eq_some_iff {target : Node} {key : String} :
    targetKey? target = some key ↔
      target.kind = "identifier" ∧ target.text = key
      ∨ target.kind = "member_expression" ∧ ∃ object property,
          target.child? "object" = some object ∧ object.kind = "identifier"
          ∧ target.child? "property" = some property
          ∧ object.text ++ "." ++ property.text = key := by
  rw [targetKey?]
  by_cases name : target.kind = "identifier"
  · simp [isIdentifier, name]
  · rw [if_neg (by simpa [isIdentifier] using name)]
    cases target.child? "object" <;> cases target.child? "property" <;> simp [name, isIdentifier]

theorem writesTo_of_writeKey? {n : Node} {key : String} (h : writeKey? n = some key) :
    WritesTo n key := by
  rw [writeKey?] at h
  split_ifs at h with assignment augmented update
  · obtain ⟨target, left, h⟩ := Option.bind_eq_some_iff.1 h
    rcases targetKey?_eq_some_iff.1 h with ⟨name, rfl⟩ | ⟨member, _, _, object, name, property, rfl⟩
    · exact .name assignment left name
    · exact .property assignment left member object name property
  · split at h
    case h_2 => cases h
    case h_1 operator found =>
      obtain ⟨counted, h⟩ := Option.ite_none_right_eq_some.1 h
      obtain ⟨target, left, h⟩ := Option.bind_eq_some_iff.1 h
      obtain ⟨name, rfl⟩ := nameKey?_eq_some_iff.1 h
      exact .compound augmented found (List.contains_iff_mem.1 counted) left name
  · obtain ⟨target, argument, h⟩ := Option.bind_eq_some_iff.1 h
    obtain ⟨name, rfl⟩ := nameKey?_eq_some_iff.1 h
    exact .step update argument name

theorem writeKey?_of_writesTo {n : Node} {key : String} (h : WritesTo n key) :
    writeKey? n = some key := by
  cases h with
  | name kind left name =>
    rw [writeKey?, if_pos kind, left]
    exact targetKey?_eq_some_iff.2 (.inl ⟨name, rfl⟩)
  | property kind left member object name property =>
    rw [writeKey?, if_pos kind, left]
    exact targetKey?_eq_some_iff.2 (.inr ⟨member, _, _, object, name, property, rfl⟩)
  | compound kind found counted left name =>
    rw [writeKey?, if_neg (by simp [kind]), if_pos kind, found, left]
    dsimp only
    rw [if_pos (show compoundOperators.contains _ = true from List.contains_iff_mem.2 counted)]
    exact nameKey?_eq_some_iff.2 ⟨name, rfl⟩
  | step kind argument name =>
    rw [writeKey?, if_neg (by simp [kind]), if_neg (by simp [kind]), if_pos kind, argument]
    exact nameKey?_eq_some_iff.2 ⟨name, rfl⟩

/-! ### Variables -/

def declaredName? (d : Node) : Option String :=
  if d.kind = "variable_declarator" then ((d.child? "name").filter isIdentifier).map Node.text
  else none

/-- The name of a reassignable variable: what a node declares right below a reassignable
declaration. -/
def reassignableName? (declaration d : Node) : Option String :=
  if isLet declaration then declaredName? d else none

/-- The names of the reassignable variables, in the order of the walk. -/
def reassignableNames (root : Node) : List String :=
  (root.lineage []).filterMap fun e => e.2.head?.bind fun declaration =>
    reassignableName? declaration e.1

/-- How many reassignable variables each write reaches, in the order of the walk. -/
def variablesReached (root : Node) : List Nat :=
  (writes root).map (reassignableNames root).count

/-- How often each reassigned variable is written, declaration by declaration. -/
def writesReceived (root : Node) : List Nat :=
  ((root.walk.flatMap letNames).map fun d => (writes root).count d.2).filter (· ≠ 0)

theorem map_snd_letNames (n : Node) :
    (letNames n).map Prod.snd = n.children.filterMap (reassignableName? n) := by
  rw [letNames]
  split
  case isTrue reassignable =>
    rw [List.map_filterMap]
    refine List.filterMap_congr fun d _ => ?_
    rw [reassignableName?, if_pos reassignable, declaredName?]
    split
    · rw [Option.map_map]
      rfl
    · rfl
  case isFalse constant =>
    refine (List.filterMap_eq_nil_iff.2 fun d _ => ?_).symm
    rw [reassignableName?, if_neg constant]

/-- All that stand below their declarations are the variables of one declaration after the other. -/
theorem reassignableNames_perm (root : Node) :
    (reassignableNames root).Perm ((root.walk.flatMap letNames).map Prod.snd) := by
  -- The walk may meet nested declarations between two variables of one, so the orders differ.
  have below := Node.flatMap_lineage_perm
    (fun declaration d => (reassignableName? declaration d).toList) [] root
  have names : reassignableNames root
      = (root.lineage []).flatMap fun e => e.2.head?.toList.flatMap fun declaration =>
          (reassignableName? declaration e.1).toList := by
    rw [reassignableNames, List.filterMap_eq_flatMap_toList]
    refine List.flatMap_congr fun e _ => ?_
    cases e.2 <;> simp
  rw [names, List.map_flatMap]
  simpa [map_snd_letNames, List.filterMap_eq_flatMap_toList] using below

/-! ### Writes charged to variables -/

theorem sum_count_comm {α : Type} [BEq α] [LawfulBEq α] (xs ys : List α) :
    (xs.map ys.count).sum = (ys.map xs.count).sum := by
  induction xs with
  | nil => simp
  | cons x rest ih =>
    have first : (ys.map fun y => if x == y then 1 else 0).sum = ys.count x := by
      clear ih
      induction ys with
      | nil => rfl
      | cons y rest ih => rw [List.map_cons, List.sum_cons, ih, List.count_cons, add_comm, BEq.comm]
    simp only [List.map_cons, List.sum_cons, ih, List.count_cons, List.sum_map_add, first]
    exact Nat.add_comm _ _

theorem sum_writesReceived (root : Node) :
    (writesReceived root).sum = (variablesReached root).sum := by
  have dropped (counts : List ℕ) : (counts.filter (· ≠ 0)).sum = counts.sum := by
    induction counts with
    | nil => rfl
    | cons k rest ih =>
      by_cases none : k = 0
      · rw [List.filter_cons_of_neg (by simpa using none), ih, List.sum_cons, none, zero_add]
      · rw [List.filter_cons_of_pos (by simpa using none), List.sum_cons, ih, List.sum_cons]
  calc (writesReceived root).sum
      = ((root.walk.flatMap letNames).map fun d => (writes root).count d.2).sum := dropped _
    _ = (((root.walk.flatMap letNames).map Prod.snd).map (writes root).count).sum := by
      rw [List.map_map]
      rfl
    _ = ((reassignableNames root).map (writes root).count).sum :=
      ((reassignableNames_perm root).map _).sum_eq.symm
    _ = (variablesReached root).sum := sum_count_comm _ _

theorem score_mutability {α : Type} [Scalar α] (ceiling : Ceiling) (least : α) (t : Tree) :
    (measure ceiling least t).score .mutability
      = ((writesReceived t.root).map fun k : ℕ => (k : α)).foldl (· + ·) 0.0 := by
  have amounts (written : List String) (n : Node) :
      (mutabilityCharges written n).map Charge.amount
        = (((letNames n).map fun d => written.count d.2).filter (· ≠ 0)).map
          fun k : ℕ => (k : α) := by
    rw [mutabilityCharges]
    induction letNames n with
    | nil => rfl
    | cons d rest ih =>
      by_cases none : written.count d.2 = 0
      · rw [List.filterMap_cons_none (by exact if_pos none), ih, List.map_cons,
          List.filter_cons_of_neg (by simpa using none)]
      · rw [List.filterMap_cons_some (by exact if_neg none), List.map_cons, ih, List.map_cons,
          List.filter_cons_of_pos (by simpa using none)]
        rfl
  change accumulate 0.0 _ = _
  rw [filter_charges, accumulate, ← List.foldl_map, List.map_flatMap, writesReceived,
    List.map_flatMap, List.filter_flatMap, List.map_flatMap]
  exact congrArg _ (List.flatMap_congr fun n _ => amounts _ n)

theorem score_mutability_rat (ceiling : Ceiling) (least : ℚ) (t : Tree) :
    (measure ceiling least t).score .mutability = ((variablesReached t.root).sum : ℕ) := by
  have zero : (0.0 : ℚ) = 0 := by norm_num
  rw [score_mutability, Scalar.foldl_add_rat (·), List.map_id', ← Nat.cast_list_sum,
    sum_writesReceived, zero, zero_add]

/-- What a run adds up is the exact count, unless that is more than a double can count to. -/
theorem place?_score_mutability (ceiling : Ceiling) (least : Number) {t : Tree}
    (small : (variablesReached t.root).sum < 2 ^ 53) :
    ((measure ceiling least t).score .mutability).place?
      = some (toLex (0, ((variablesReached t.root).sum : ℚ))) := by
  rw [← sum_writesReceived] at small ⊢
  have amounts : List.Forall₂ (fun b l => b.CountsUnits l 0)
      ((writesReceived t.root).map fun k : ℕ => (k : Number)) (writesReceived t.root) := by
    rw [List.forall₂_map_left_iff, List.forall₂_same]
    intro k received
    exact Number.countsUnits_natCast ((List.single_le_sum (by simp) k received).trans_lt small)
  rw [score_mutability, Number.place?_foldl_add amounts small (by decide), zpow_zero, mul_one]

/-! ### Other orders -/

/-- Two files make the same writes and have the same reassignable variables, in whatever order. -/
structure Rearranges (t' t : Tree) : Prop where
  writes : (writes t'.root).Perm (writes t.root)
  names : (reassignableNames t'.root).Perm (reassignableNames t.root)

theorem Rearranges.sum_variablesReached {t' t : Tree} (h : Rearranges t' t) :
    (variablesReached t'.root).sum = (variablesReached t.root).sum := by
  have counts : (reassignableNames t'.root).count = (reassignableNames t.root).count :=
    funext fun key => h.names.count_eq key
  rw [variablesReached, variablesReached, counts]
  exact (h.writes.map _).sum_eq

/-- The statements of a file can stand in any order. -/
theorem rearranges_of_perm {t' t : Tree} (kind : t.root.kind = "program")
    (kind' : t'.root.kind = "program") (same : t'.root.branches.Perm t.root.branches) :
    Rearranges t' t := by
  have children : t'.root.children.Perm t.root.children := same.filter _
  have below : (t'.root.children.flatMap Node.walk).Perm (t.root.children.flatMap Node.walk) :=
    children.flatMap_right _
  have nothing {n : Node} (program : n.kind = "program") : letNames n = [] := by
    simp [letNames, isLet, program]
  refine ⟨?_, ?_⟩
  · rw [Metrics.writes, Metrics.writes, Node.walk_eq, Node.walk_eq,
      List.filterMap_cons_none (writeKey?_program kind),
      List.filterMap_cons_none (writeKey?_program kind')]
    exact below.filterMap _
  · refine (reassignableNames_perm _).trans (.trans ?_ (reassignableNames_perm _).symm)
    rw [Node.walk_eq, Node.walk_eq t.root, List.flatMap_cons, List.flatMap_cons, nothing kind,
      nothing kind', List.nil_append, List.nil_append]
    exact (below.flatMap_right _).map _

/-- Every write is charged once to each reassignable variable that it reaches, in exact numbers and
also in the doubles of a run as long as these can count the charges. Whatever the order of writes
and declarations, and so also of the statements of the file, the score is the same. -/
theorem mutability_score_by_writes (t : Tree) :
    (∀ ceiling (least : ℚ),
      (measure ceiling least t).score .mutability = ((variablesReached t.root).sum : ℕ))
    ∧ ((variablesReached t.root).sum < 2 ^ 53 → ∀ ceiling (least : Number),
      ((measure ceiling least t).score .mutability).place?
        = some (toLex (0, ((variablesReached t.root).sum : ℚ))))
    ∧ (∀ n key, writeKey? n = some key ↔ WritesTo n key)
    ∧ (t.root.lineage []).map Prod.fst = t.root.walk
    ∧ ∀ t', (Rearranges t' t → ∀ ceiling (least : ℚ),
        (measure ceiling least t').score .mutability = (measure ceiling least t).score .mutability)
      ∧ (t.root.kind = "program" → t'.root.kind = "program" →
        t'.root.branches.Perm t.root.branches → Rearranges t' t) := by
  refine ⟨fun ceiling least => score_mutability_rat ceiling least t,
    fun small ceiling least => place?_score_mutability ceiling least small,
    fun n key => ⟨writesTo_of_writeKey?, writeKey?_of_writesTo⟩, Node.map_fst_lineage [] t.root,
    fun t' => ⟨fun rearranges ceiling least => ?_, rearranges_of_perm⟩⟩
  rw [score_mutability_rat, score_mutability_rat, rearranges.sum_variablesReached]

/-- A variable that is stepped up before its declaration and assigned behind it, with another one of
its name in a block, writes to one of its properties and to a variable of a pattern, and shifts that
do not count. -/
def scatteredStatements : List Node :=
  let node (kind text : String) (field : Option String) (branches : List Node) : Node :=
    ⟨kind, true, false, false, field, text, 0, 0, 0, branches⟩
  let name (text field : String) : Node := node "identifier" text (some field) []
  let token (text field : String) : Node := node text text (some field) []
  let declaration (declared : List Node) : Node :=
    node "lexical_declaration" "" none (token "let" "kind" :: declared)
  let declarator : Node := node "variable_declarator" "" none [name "x" "name"]
  let pattern : Node :=
    node "variable_declarator" "" none [node "object_pattern" "y" (some "name") []]
  let property : Node :=
    node "member_expression" "x.y" (some "left") [name "x" "object", name "y" "property"]
  let shift : Node :=
    node "augmented_assignment_expression" "" none [name "x" "left", token "<<=" "operator"]
  [node "update_expression" "" none [name "x" "argument"],
    declaration [declarator, pattern],
    node "assignment_expression" "" none [name "x" "left"],
    node "assignment_expression" "" none [property],
    node "assignment_expression" "" none [name "y" "left"],
    node "statement_block" "" none [shift, declaration [declarator]]]

def fileOf (statements : List Node) : Tree :=
  ⟨⟨"program", true, false, false, none, "", 0, 0, 0, statements⟩, "file.ts", .typescript⟩

theorem mutability_score_by_writes_scattered :
    variablesReached (fileOf scatteredStatements).root = [2, 2, 0, 0]
    ∧ (measure (.level 5) (3 : ℚ) (fileOf scatteredStatements)).score .mutability = 4
    ∧ ((measure (.level 5) (3.0 : Number) (fileOf scatteredStatements)).score .mutability).place?
      = some (toLex (0, 4))
    ∧ (measure (.level 5) (3 : ℚ) (fileOf scatteredStatements.reverse)).score .mutability = 4 := by
  have reached : variablesReached (fileOf scatteredStatements).root = [2, 2, 0, 0] := by
    decide +kernel
  obtain ⟨exact, double, -, -, orders⟩ := mutability_score_by_writes (fileOf scatteredStatements)
  have four : (([2, 2, 0, 0] : List ℕ).sum : ℚ) = 4 := by norm_num
  rw [reached] at exact double
  obtain ⟨same, reordered⟩ := orders (fileOf scatteredStatements.reverse)
  have rearranges := reordered rfl rfl (List.reverse_perm scatteredStatements)
  exact ⟨reached, (exact (.level 5) 3).trans four,
    (double (by decide) (.level 5) 3.0).trans (by rw [four]),
    (same rearranges (.level 5) 3).trans ((exact (.level 5) 3).trans four)⟩

end ComplexityMeter.Metrics
