import ComplexityMeter.Config.Record
import ComplexityMeter.Proofs.Score.Monotone

/-!
# Switches and chains of conditions

A switch scores all its cases on one level, while in a chain of conditions every arm stands one
level below the arm before it. Arm by arm a chain costs more than a switch case by case, but the
ceiling cuts it off: the arms below add nothing, and a switch with enough cases scores more.
-/

namespace ComplexityMeter.Score

open Syntax (Node Tree)

/-! ### Shapes -/

/-- A call of a function with one number, as a statement. -/
inductive IsHandling (n : Node) : Prop where
  | intro (kind : n.kind = "expression_statement") (call : Node) (only : n.children = [call])
      (callKind : call.kind = "call_expression") (callee : Node)
      (function : call.child? "function" = some callee) (calleeKind : callee.kind = "identifier")
      (list : Node) (arguments : call.child? "arguments" = some list)
      (listKind : list.kind = "arguments") (argument : Node) (one : list.children = [argument])
      (argumentKind : argument.kind = "number")

/-- The comparison of a name with a number, in parentheses. -/
inductive IsTest (n : Node) : Prop where
  | intro (kind : n.kind = "parenthesized_expression") (comparison : Node)
      (only : n.children = [comparison]) (comparisonKind : comparison.kind = "binary_expression")
      (left : Node) (onLeft : comparison.child? "left" = some left)
      (leftKind : left.kind = "identifier") (right : Node)
      (onRight : comparison.child? "right" = some right) (rightKind : right.kind = "number")
      (operator : comparison.token? "operator" = some "===")

/-- A condition that compares a name with a number and then handles it, in a block. -/
inductive IsArm (n : Node) : Prop where
  | intro (kind : n.kind = "if_statement") (test : Node) (tested : n.child? "condition" = some test)
      (isTest : IsTest test) (block : Node) (then_ : n.child? "consequence" = some block)
      (blockKind : block.kind = "statement_block") (handling : Node)
      (only : block.children = [handling]) (isHandling : IsHandling handling)

/-- A chain of so many conditions, each in the else clause of the one before it. -/
inductive IsChain : Nat → Node → Prop where
  | last {n : Node} (arm : IsArm n) (none : n.child? "alternative" = none) : IsChain 1 n
  | more {n : Node} {count : Nat} (arm : IsArm n) (clause : Node)
      (other : n.child? "alternative" = some clause) (kind : clause.kind = "else_clause")
      (next : Node) (only : clause.children = [next]) (rest : IsChain count next) :
      IsChain (count + 1) n

/-- A case of a number that handles it and breaks. -/
inductive IsCase (n : Node) : Prop where
  | intro (kind : n.kind = "switch_case") (test : Node) (tested : n.child? "value" = some test)
      (testKind : test.kind = "number") (handling stop : Node)
      (body : n.fields "body" = [handling, stop]) (isHandling : IsHandling handling)
      (stopKind : stop.kind = "break_statement")

/-- A switch over a name with so many cases. -/
inductive IsSwitch (count : Nat) (n : Node) : Prop where
  | intro (kind : n.kind = "switch_statement") (value : Node)
      (switched : n.child? "value" = some value) (valueKind : value.kind = "parenthesized_expression")
      (name : Node) (only : value.children = [name]) (nameKind : name.kind = "identifier")
      (body : Node) (within : n.child? "body" = some body) (clauses : body.children.length = count)
      (isCase : ∀ clause ∈ body.children, IsCase clause)

/-! ### Scores by level -/

def handlingScore : (levels : Nat) → ℚ
  | 0 => 1
  | 1 => 2
  | _ + 2 => 4

def testScore : (levels : Nat) → ℚ
  | 0 | 1 => 1
  | _ + 2 => 3.3

def blockScore : (levels : Nat) → ℚ
  | 0 => 1
  | levels + 1 => 1.1 + handlingScore levels

/-- What a chain of so many arms scores. Where no level is left, the arms that are left score what
one node does that is cut off. -/
def chainScore : (levels count : Nat) → ℚ
  | _, 0 => 0
  | 0, _ + 1 => 1
  | levels + 1, count + 1 => 1.5 + testScore levels + blockScore levels + chainScore levels count

def switchScore : (levels count : Nat) → ℚ
  | 0, _ => 1
  | levels + 1, count => 2 + (1.8 + handlingScore levels) * count

section

variable {n : Node} (levels : Nat)

theorem scoreSum_cons (r : Result ℚ) (rest : List (Result ℚ)) :
    scoreSum (r :: rest) = r.score + scoreSum rest := by
  simp [scoreSum, Scalar.sum_rat]

theorem scoreSum_nil : scoreSum ([] : List (Result ℚ)) = 0 :=
  rfl

theorem score_plain (plain : Form.ofKind n.kind = .plain) :
    (compose (α := ℚ) levels n).score = 1 := by
  cases levels with
  | zero => exact score_compose_zero n
  | succ levels =>
    rw [compose, formula, plain]
    norm_num [resultOf]

theorem score_identifier (kind : n.kind = "identifier") :
    (compose (α := ℚ) levels n).score = 1 :=
  score_plain levels (by rw [kind]; decide)

theorem score_number (kind : n.kind = "number") : (compose (α := ℚ) levels n).score = 1 :=
  score_plain levels (by rw [kind]; decide)

theorem score_handling (h : IsHandling n) :
    (compose (α := ℚ) levels n).score = handlingScore levels := by
  obtain ⟨kind, call, only, callKind, callee, function, calleeKind, list, arguments, listKind,
    argument, one, argumentKind⟩ := h
  have form : Form.ofKind n.kind = .wrapper := by rw [kind]; decide
  have callForm : Form.ofKind call.kind = .call := by rw [callKind]; decide
  match levels with
  | 0 => exact score_compose_zero n
  | 1 =>
    rw [compose, formula, form]
    simp only [sumFormula, resultOf, only, List.map_cons, List.map_nil, scoreSum_cons, scoreSum_nil,
      score_compose_zero, handlingScore, id]
    norm_num
  | levels + 2 =>
    rw [compose, formula, form]
    simp only [sumFormula, resultOf, only, List.map_cons, List.map_nil, scoreSum_cons, scoreSum_nil,
      handlingScore, id]
    rw [compose, formula, callForm]
    simp only [callFormula, callee?, function, Option.some_or, Option.toList_some, Score.arguments,
      arguments, listKind, one, resultOf, List.map_cons, List.map_nil, scoreSum_cons, scoreSum_nil,
      if_true]
    rw [score_identifier levels calleeKind, score_number levels argumentKind]
    norm_num [argumentFactor, Scalar.atLeast]

theorem score_test (h : IsTest n) : (compose (α := ℚ) levels n).score = testScore levels := by
  obtain ⟨kind, comparison, only, comparisonKind, left, onLeft, leftKind, right, onRight, rightKind,
    token⟩ := h
  have form : Form.ofKind n.kind = .transparent := by rw [kind]; decide
  have comparisonForm : Form.ofKind comparison.kind = .binary := by rw [comparisonKind]; decide
  have weight : operatorWeight (α := ℚ) (operator comparison) = 0.3 := by
    have other : comparison.kind ≠ "assignment_expression" := by rw [comparisonKind]; decide
    rw [operator, if_neg other, token]
    rfl
  have inner (fewer : Nat) : compose (α := ℚ) (fewer + 1) n = compose fewer comparison := by
    rw [compose, formula, form]
    simp only [only]
  obtain _ | _ | levels := levels
  · exact score_compose_zero n
  · rw [inner, score_compose_zero, testScore]
  · rw [inner, compose, formula, comparisonForm]
    simp only [sumFormula, under, List.filterMap_cons, onLeft, onRight, List.filterMap_nil,
      resultOf, List.map_cons, List.map_nil, scoreSum_cons, scoreSum_nil, weight, testScore]
    rw [score_identifier levels leftKind, score_number levels rightKind]
    norm_num

theorem score_block (kind : n.kind = "statement_block") {handling : Node}
    (only : n.children = [handling]) (isHandling : IsHandling handling) :
    (compose (α := ℚ) levels n).score = blockScore levels := by
  have form : Form.ofKind n.kind = .block := by rw [kind]; decide
  cases levels with
  | zero => exact score_compose_zero n
  | succ levels =>
    rw [compose, formula, form]
    simp only [sumFormula, only, resultOf, List.map_cons, List.map_nil, scoreSum_cons, scoreSum_nil,
      score_handling levels isHandling, blockScore, List.length_singleton]
    norm_num
    ring

/-- An arm scores what it holds on the level below, and what its alternative scores there. -/
theorem score_arm (h : IsArm n) : (compose (α := ℚ) (levels + 1) n).score
    = 1.5 + testScore levels + blockScore levels
      + scoreSum ((alternative? n).toList.map (compose levels)) := by
  obtain ⟨kind, test, tested, isTest, block, consequence, blockKind, handling, only,
    isHandling⟩ := h
  have form : Form.ofKind n.kind = .conditional := by rw [kind]; decide
  rw [compose, formula, form]
  simp only [sumFormula, under, List.filterMap_cons, tested, consequence, List.filterMap_nil,
    resultOf, List.cons_append, List.nil_append, List.map_cons, scoreSum_cons,
    score_test levels isTest, score_block levels blockKind only isHandling]
  norm_num
  ring

/-- A chain scores by its number of arms and the levels left. -/
theorem score_chain {count : Nat} (h : IsChain count n) :
    (compose (α := ℚ) levels n).score = chainScore levels count := by
  induction h generalizing levels with
  | last arm none =>
    cases levels with
    | zero => exact score_compose_zero _
    | succ levels =>
      rw [score_arm levels arm, alternative?, none, chainScore, chainScore]
      rfl
  | @more n count arm clause other kind next only rest ih =>
    cases levels with
    | zero => exact score_compose_zero _
    | succ levels =>
      have alternative : alternative? n = some next := by
        rw [alternative?, other, Option.bind_some, if_pos kind, only, List.head?_cons]
      rw [score_arm levels arm, alternative, chainScore, ← ih levels]
      simp only [Option.toList_some, List.map_cons, List.map_nil, scoreSum_cons, scoreSum_nil,
        add_zero]

theorem afterCase_eq (h : IsCase n) (start : ℚ) :
    afterCase (compose levels) start n = start + (1.3 + handlingScore levels) := by
  obtain ⟨kind, test, tested, testKind, handling, stop, body, isHandling, stopKind⟩ := h
  have plain : Form.ofKind stop.kind = .plain := by rw [stopKind]; decide
  simp only [afterCase, tested, body, List.map_cons, List.map_nil, scoreSum_cons, scoreSum_nil,
    score_number levels testKind, score_handling levels isHandling, score_plain levels plain]
  ring

theorem foldl_afterCase {clauses : List Node} (h : ∀ clause ∈ clauses, IsCase clause) (start : ℚ) :
    clauses.foldl (afterCase (compose levels)) start
      = start + (1.3 + handlingScore levels) * clauses.length := by
  induction clauses generalizing start with
  | nil => simp
  | cons clause rest ih =>
    obtain ⟨first, others⟩ := List.forall_mem_cons.1 h
    rw [List.foldl_cons, ih others, afterCase_eq levels first, List.length_cons, Nat.cast_succ]
    ring

theorem score_switch {count : Nat} (h : IsSwitch count n) :
    (compose (α := ℚ) levels n).score = switchScore levels count := by
  obtain ⟨kind, value, switched, valueKind, name, only, nameKind, body, within, clauses, isCase⟩ := h
  have form : Form.ofKind n.kind = .switch := by rw [kind]; decide
  have valueForm : Form.ofKind value.kind = .transparent := by rw [valueKind]; decide
  have valueScore (fewer : Nat) : (compose (α := ℚ) fewer value).score = 1 := by
    cases fewer with
    | zero => exact score_compose_zero value
    | succ fewer =>
      rw [compose, formula, valueForm]
      simp only [only]
      exact score_identifier fewer nameKind
  have all : cases n = body.children := by
    rw [cases, members, within]
    refine List.filter_eq_self.2 fun clause known => ?_
    obtain ⟨clauseKind⟩ := isCase clause known
    simp [Score.isCase, clauseKind]
  cases levels with
  | zero => exact score_compose_zero n
  | succ levels =>
    rw [compose, formula, form]
    simp only [switchFormula, resultOf, all, foldl_afterCase levels isCase, clauses, under,
      List.filterMap_cons, List.filterMap_nil, switched, List.map_cons, List.map_nil, scoreSum_cons,
      scoreSum_nil, valueScore, switchScore]
    norm_num
    ring

end

/-! ### Arms beyond the ceiling -/

/-- One arm more than there are levels is cut off, and all further ones with it. -/
theorem chainScore_of_lt {levels count : Nat} (h : levels < count) :
    chainScore levels count = chainScore levels (levels + 1) := by
  induction levels generalizing count with
  | zero =>
    obtain ⟨fewer, rfl⟩ := Nat.exists_eq_add_one.2 h
    rfl
  | succ levels ih =>
    obtain ⟨fewer, rfl⟩ := Nat.exists_eq_add_one.2 (Nat.zero_lt_of_lt h)
    rw [chainScore, ih (Nat.lt_of_succ_lt_succ h), ← chainScore]

theorem switchScore_twenty (count : Nat) : switchScore 20 count = 2 + 5.8 * count := by
  norm_num [switchScore, handlingScore]

theorem chainScore_twenty_of_lt {count : Nat} (long : 20 < count) :
    chainScore 20 count = 185.3 := by
  rw [chainScore_of_lt long]
  decide +kernel

theorem switchScore_lt_chainScore_iff {count : Nat} (one : 1 ≤ count) :
    switchScore 20 count < chainScore 20 count ↔ count ≤ 31 := by
  rw [switchScore_twenty]
  by_cases short : count ≤ 20
  · have cheaper : ∀ arms : ℕ, arms < 21 → 1 ≤ arms →
        2 + 5.8 * (arms : ℚ) < chainScore 20 arms := by
      decide +kernel
    exact iff_of_true (cheaper count (by omega) one) (by omega)
  · rw [chainScore_twenty_of_lt (Nat.not_le.1 short)]
    constructor
    · intro below
      by_contra long
      have many : (32 : ℚ) ≤ count := by exact_mod_cast Nat.not_le.1 long
      linarith
    · intro few
      have few : (count : ℚ) ≤ 31 := by exact_mod_cast few
      linarith

/-! ### Files -/

theorem statementWeight_eq_one {n : Node}
    (kind : n.kind = "switch_statement" ∨ n.kind = "if_statement") :
    statementWeight (α := ℚ) n = 1 := by
  have weighed : weighed? n = some n := by
    rw [weighed?]
    rcases kind with kind | kind <;> rw [kind, if_neg (by decide)]
  have weight : declarationWeight (α := ℚ) n = 1 := by
    unfold declarationWeight
    rcases kind with kind | kind <;>
      rw [kind, if_neg (by decide), if_neg (by decide), if_neg (by decide)] <;> norm_num
  rw [statementWeight, weighed, Option.map_some, Option.getD_some, weight]

theorem score_file_of_statement {t : Tree} {n : Node} (only : t.root.children = [n])
    (distinct : (t.root.nodes.map Node.identity).Nodup)
    (kind : n.kind = "switch_statement" ∨ n.kind = "if_statement") (bound : Nat) :
    (scoreFile (.level bound) t).score = 1 + (compose (α := ℚ) bound n).score := by
  have inside : n ∈ t.root.nodes := Node.mem_nodes_of_mem_children (by simp [only])
  have leaves : Ceiling.Leaves 0 bound n (.level bound) := by simp [Ceiling.Leaves]
  rw [score_scoreFile distinct, only, List.map_singleton, List.sum_singleton, contribution,
    scoreAlone_eq_compose (Node.distinct_of_mem distinct inside) leaves,
    statementWeight_eq_one kind, mul_one]

theorem IsSwitch.kind_eq {count : Nat} {n : Node} (h : IsSwitch count n) :
    n.kind = "switch_statement" := by
  obtain ⟨kind⟩ := h
  exact kind

theorem IsChain.kind_eq {count : Nat} {n : Node} (h : IsChain count n) :
    n.kind = "if_statement" := by
  cases h with
  | last arm _ | more arm =>
    obtain ⟨kind⟩ := arm
    exact kind

/-- A file that is one switch with the given number of cases, each node of its own identity. -/
structure IsSwitchFile (count : Nat) (t : Tree) : Prop where
  distinct : (t.root.nodes.map Node.identity).Nodup
  only : ∃ n, t.root.children = [n] ∧ IsSwitch count n

/-- A file that is one chain with the given number of arms, each node of its own identity. -/
structure IsChainFile (count : Nat) (t : Tree) : Prop where
  distinct : (t.root.nodes.map Node.identity).Nodup
  only : ∃ n, t.root.children = [n] ∧ IsChain count n

theorem score_switchFile {count : Nat} {t : Tree} (h : IsSwitchFile count t) (bound : Nat) :
    (scoreFile (.level bound) t).score = 1 + switchScore bound count := by
  obtain ⟨n, only, switch⟩ := h.only
  rw [score_file_of_statement only h.distinct (.inl switch.kind_eq), score_switch bound switch]

theorem score_chainFile {count : Nat} {t : Tree} (h : IsChainFile count t) (bound : Nat) :
    (scoreFile (.level bound) t).score = 1 + chainScore bound count := by
  obtain ⟨n, only, chain⟩ := h.only
  rw [score_file_of_statement only h.distinct (.inr chain.kind_eq), score_chain bound chain]

/-- Under the default settings a file that is a switch scores less than one that is a chain with as
many arms as the switch has cases, as long as they are no more than thirty-one. The score of the
switch grows with every case, that of the chain with no arm after the twenty-first. -/
theorem switch_lt_chain_iff {count : Nat} (one : 1 ≤ count) {t u : Tree}
    (switch : IsSwitchFile count t) (chain : IsChainFile count u) :
    let score := fun t => (scoreFile (α := ℚ) Config.default.settings.ceiling t).score
    (score t < score u ↔ count ≤ 31) ∧ score t = 3 + 5.8 * count
      ∧ (21 ≤ count → score u = 186.3) := by
  have ceiling : Config.default.settings.ceiling = .level (20 : Nat) := rfl
  simp only [ceiling, score_switchFile switch, score_chainFile chain]
  refine ⟨?_, ?_, fun long => ?_⟩
  · rw [add_lt_add_iff_left, switchScore_lt_chainScore_iff one]
  · rw [switchScore_twenty]
    ring
  · rw [chainScore_twenty_of_lt long]
    norm_num

/-! ### Files of both kinds -/

/-- A call with a number. The identities of its five nodes go on from the given one. -/
def handlingAt (field : Option String) (identity : Nat) : Node :=
  sketch "expression_statement" field identity
    [sketch "call_expression" none (identity + 1)
      [sketch "identifier" (some "function") (identity + 2) [],
        sketch "arguments" (some "arguments") (identity + 3)
          [sketch "number" none (identity + 4) []]]]

def caseAt (identity : Nat) : Node :=
  sketch "switch_case" none identity
    [sketch "number" (some "value") (identity + 1) [], handlingAt (some "body") (identity + 2),
      sketch "break_statement" (some "body") (identity + 7) []]

def casesAt (count : Nat) : List Node :=
  (List.range count).map fun i => caseAt (5 + 8 * i)

def switchFile (count : Nat) : Tree :=
  let value := sketch "parenthesized_expression" (some "value") 2 [sketch "identifier" none 3 []]
  ⟨sketch "program" none 0
    [sketch "switch_statement" none 1
      [value, sketch "switch_body" (some "body") 4 (casesAt count)]],
    "switch.ts", .typescript⟩

/-- A condition and the block after it, with eleven identities from the given one on. -/
def armAt (identity : Nat) : List Node :=
  let operator : Node :=
    ⟨"===", false, false, false, some "operator", "===", 0, 0, identity + 3, []⟩
  [sketch "parenthesized_expression" (some "condition") identity
      [sketch "binary_expression" none (identity + 1)
        [sketch "identifier" (some "left") (identity + 2) [], operator,
          sketch "number" (some "right") (identity + 4) []]],
    sketch "statement_block" (some "consequence") (identity + 5) [handlingAt none (identity + 6)]]

/-- A chain with one arm more than the given count. -/
def chainAt : (more identity : Nat) → Node
  | 0, identity => sketch "if_statement" none identity (armAt (identity + 1))
  | more + 1, identity =>
    sketch "if_statement" none identity (armAt (identity + 1)
      ++ [sketch "else_clause" (some "alternative") (identity + 12) [chainAt more (identity + 13)]])

def chainFile (more : Nat) : Tree :=
  ⟨sketch "program" none 0 [chainAt more 1], "chain.ts", .typescript⟩

theorem children_eq_branches {n : Node} (h : ∀ c ∈ n.branches, c.isVisible = true) :
    n.children = n.branches :=
  List.filter_eq_self.2 h

theorem isHandling_handlingAt (field : Option String) (identity : Nat) :
    IsHandling (handlingAt field identity) :=
  .intro rfl _ rfl rfl _ rfl rfl _ rfl rfl _ rfl rfl

theorem isCase_caseAt (identity : Nat) : IsCase (caseAt identity) :=
  .intro rfl _ rfl rfl _ _ rfl (isHandling_handlingAt _ _) rfl

theorem isArm_of_branches {identity : Nat} {others : List Node} :
    IsArm (sketch "if_statement" none identity (armAt (identity + 1) ++ others)) :=
  .intro rfl _ rfl (.intro rfl _ rfl rfl _ rfl rfl _ rfl rfl rfl) _ rfl rfl _ rfl
    (isHandling_handlingAt _ _)

theorem isVisible_chainAt (more identity : Nat) : (chainAt more identity).isVisible = true := by
  cases more <;> rfl

theorem isChain_chainAt (more identity : Nat) : IsChain (more + 1) (chainAt more identity) := by
  induction more generalizing identity with
  | zero =>
    have arm : IsArm (chainAt 0 identity) := @isArm_of_branches identity []
    exact .last arm rfl
  | succ more ih =>
    refine .more isArm_of_branches _ rfl rfl _ ?_ (ih (identity + 13))
    exact children_eq_branches (by simp [sketch, isVisible_chainAt])

theorem isSwitch_switchFile (count : Nat) :
    ∃ n, (switchFile count).root.children = [n] ∧ IsSwitch count n := by
  have visible : ∀ clause ∈ casesAt count, clause.isVisible = true := by
    intro clause known
    obtain ⟨i, -, rfl⟩ := List.mem_map.1 known
    rfl
  have clauses : (sketch "switch_body" (some "body") 4 (casesAt count)).children = casesAt count :=
    children_eq_branches visible
  refine ⟨_, rfl, .intro rfl _ rfl rfl _ rfl rfl _ rfl ?_ ?_⟩
  · exact (congrArg List.length clauses).trans (by simp [casesAt])
  · intro clause known
    obtain ⟨i, -, rfl⟩ := List.mem_map.1 (clauses ▸ known)
    exact isCase_caseAt _

/-! Identities count the nodes in source order, so that none of them repeats. -/

theorem identities_chainAt (more identity : Nat) :
    (chainAt more identity).nodes.map Node.identity = List.range' identity (13 * more + 12) := by
  induction more generalizing identity with
  | zero =>
    simp [chainAt, armAt, handlingAt, sketch, Node.nodes_eq, Node.nodesAll, List.range'_succ]
  | succ more ih =>
    have count : 13 * (more + 1) + 12 = 13 + (13 * more + 12) := by ring
    rw [count, ← List.range'_append_1, ← ih]
    simp [chainAt, armAt, handlingAt, sketch, Node.nodes_eq, Node.nodesAll, List.range'_succ]

theorem identities_casesAt (count : Nat) :
    (Node.nodesAll (casesAt count)).map Node.identity = List.range' 5 (8 * count) := by
  induction count with
  | zero => rfl
  | succ count ih =>
    rw [Nat.mul_succ, ← List.range'_append_1, ← ih, casesAt, casesAt, List.range_succ]
    simp [caseAt, handlingAt, sketch, Node.nodes_eq, Node.nodesAll, List.range'_succ]

theorem isSwitchFile_switchFile (count : Nat) : IsSwitchFile count (switchFile count) where
  distinct := by
    have identities : (switchFile count).root.nodes.map Node.identity
        = List.range' 0 (5 + 8 * count) := by
      rw [← List.range'_append_1, Nat.zero_add, ← identities_casesAt]
      simp [switchFile, sketch, Node.nodes_eq, Node.nodesAll, List.range'_succ]
    rw [identities]
    exact List.nodup_range'
  only := isSwitch_switchFile count

theorem isChainFile_chainFile (more : Nat) : IsChainFile (more + 1) (chainFile more) where
  distinct := by
    have identities : (chainFile more).root.nodes.map Node.identity
        = List.range' 0 (1 + (13 * more + 12)) := by
      rw [← List.range'_append_1, Nat.zero_add, ← identities_chainAt]
      simp [chainFile, sketch, Node.nodes_eq, Node.nodesAll, List.range'_succ]
    rw [identities]
    exact List.nodup_range'
  only := ⟨_, children_eq_branches (by simp [chainFile, sketch, isVisible_chainAt]),
    isChain_chainAt more 1⟩

theorem switch_lt_chain_iff_two :
    1 ≤ 2 ∧ IsSwitchFile 2 (switchFile 2) ∧ IsChainFile 2 (chainFile 1)
    ∧ (scoreFile (α := ℚ) Config.default.settings.ceiling (switchFile 2)).score
      < (scoreFile Config.default.settings.ceiling (chainFile 1)).score :=
  ⟨by decide, isSwitchFile_switchFile 2, isChainFile_chainFile 1,
    (switch_lt_chain_iff (by decide) (isSwitchFile_switchFile 2)
      (isChainFile_chainFile 1)).1.2 (by decide)⟩

/-- With thirty-two cases and arms the chain is cut off, and the switch scores more. -/
theorem chain_lt_switch_thirtyTwo :
    2 ≤ 32 ∧ IsSwitchFile 32 (switchFile 32) ∧ IsChainFile 32 (chainFile 31)
    ∧ ¬ (scoreFile (α := ℚ) Config.default.settings.ceiling (switchFile 32)).score
      < (scoreFile Config.default.settings.ceiling (chainFile 31)).score := by
  have ceiling : Config.default.settings.ceiling = .level (20 : Nat) := rfl
  refine ⟨by decide, isSwitchFile_switchFile 32, isChainFile_chainFile 31, ?_⟩
  rw [ceiling, score_switchFile (isSwitchFile_switchFile 32),
    score_chainFile (isChainFile_chainFile 31), add_lt_add_iff_left,
    switchScore_lt_chainScore_iff (by decide)]
  decide

end ComplexityMeter.Score
