import ComplexityMeter.Score.Rule
import ComplexityMeter.Syntax.Subtree

/-!
# Parts of scored nodes

Whatever the form of a node, the parts that are scored for it stand in different places below it:
under different grammar fields, among its children, or in different places below such a node. No
part is therefore scored twice for one node, and every part is smaller than the node.
-/

namespace ComplexityMeter.Score

open Syntax (Node)
open Syntax.Node (Within)

variable {α : Type}

theorem child?_sublist (n : Node) (name : String) :
    (n.child? name).toList.Sublist (n.branches.filter fun c => c.field = some name) := by
  have first : n.fieldBranch? name = (n.branches.filter fun c => c.field = some name).head? := by
    rw [List.head?_filter, Node.fieldBranch?]
  rw [Node.child?, first]
  cases n.branches.filter fun c => c.field = some name with
  | nil => simp
  | cons c rest =>
    rw [List.head?_cons, Option.filter_some]
    split <;> simp

theorem within_of_picks (n : Node) (picks : List (String × List Node))
    (distinct : (picks.map Prod.fst).Nodup)
    (h : ∀ e ∈ picks, Within e.2 (n.child? e.1).toList) :
    Within (picks.flatMap Prod.snd) n.branches :=
  .under_fields n.branches picks distinct fun e he => (h e he).trans (.of_sublist (child?_sublist n e.1))

theorem under_eq (n : Node) (names : List String) :
    under n names = (names.map fun f => (f, (n.child? f).toList)).flatMap Prod.snd := by
  rw [under]
  induction names with
  | nil => rfl
  | cons f rest ih =>
    rw [List.filterMap_cons, List.map_cons, List.flatMap_cons, ← ih]
    cases n.child? f <;> rfl

theorem within_under (n : Node) {names : List String} (distinct : names.Nodup) :
    Within (under n names) n.branches := by
  rw [under_eq]
  apply within_of_picks
  · simpa [Function.comp_def] using distinct
  · intro e he
    obtain ⟨f, _, rfl⟩ := List.mem_map.1 he
    exact .refl _

theorem within_branches (n : Node) : Within n.branches [n] := by
  refine ⟨[n], ?_⟩
  rw [Node.nodesAll_singleton, Node.nodes_eq]
  exact List.perm_append_comm

theorem within_children (n : Node) : Within n.children n.branches :=
  .of_sublist List.filter_sublist

theorem within_under_below (n : Node) (name : String) : Within (under n [name]) [n] :=
  (within_under n (by simp)).trans (within_branches n)

theorem within_child?_below (n : Node) (name : String) : Within (n.child? name).toList [n] := by
  have := within_under_below n name
  rwa [under_eq, List.map_singleton, List.flatMap_singleton] at this

theorem within_head (n : Node) : Within n.children.head?.toList [n] := by
  refine .trans (.of_sublist ?_) ((within_children n).trans (within_branches n))
  cases n.children <;> simp

/-- The parts of a node that stand below the node under one of its fields. -/
theorem within_below (n : Node) (name : String) {parts : List Node}
    (h : Within parts (n.child? name).toList) : Within parts n.branches := by
  have picked := within_of_picks n [(name, parts)] (by simp) (by simpa using h)
  simpa using picked

theorem within_sum {n : Node} {parts : List Node} {weights : List (Term α Node)}
    {facts : Entries (Value α)} (h : Within parts n.branches)
    (fixed : weights.flatMap Term.parts = []) :
    Within (Recipe.parts ⟨.sum parts :: weights, facts⟩) n.branches := by
  rw [Recipe.parts, List.flatMap_cons, fixed, List.append_nil]
  exact h

/-! ### The parts of every form -/

variable [Scalar α]

theorem within_arguments (n : Node) : Within (arguments n) (n.child? "arguments").toList := by
  rw [arguments]
  cases n.child? "arguments" with
  | none => exact .nil []
  | some list =>
    dsimp only
    split
    · exact (within_children list).trans (within_branches list)
    · exact .refl [list]

theorem parts_callRecipe (n : Node) :
    (callRecipe (α := α) n).parts = (callee? n).toList ++ arguments n := by
  simp [callRecipe, Recipe.parts, Term.parts]

theorem within_call (n : Node) : Within (callRecipe (α := α) n).parts n.branches := by
  have callee : Within ((callee? n).toList ++ arguments n)
      ((n.child? "function").toList ++ ((n.child? "constructor").toList ++ arguments n)) := by
    apply Within.of_sublist
    rw [callee?]
    cases n.child? "function" <;> simp
  have fields := within_of_picks n [("function", (n.child? "function").toList),
    ("constructor", (n.child? "constructor").toList), ("arguments", arguments n)] (by simp)
    (by simp [within_arguments, Within.refl])
  rw [parts_callRecipe]
  exact callee.trans (by simpa using fields)

theorem within_memberValues (n : Node) : Within (memberValues n) n.branches := by
  refine .trans (.flatMap ?_) (within_children n)
  intro member _
  split
  · exact within_under_below member "value"
  · exact .refl [member]

theorem within_values (n : Node) :
    Within ((declarators n).filterMap fun d => d.child? "value") n.branches := by
  have inDeclarators : Within ((declarators n).filterMap fun d => d.child? "value")
      (declarators n) :=
    .filterMap fun d _ => within_child?_below d "value"
  exact inDeclarators.trans (.trans (.of_sublist List.filter_sublist) (within_children n))

theorem within_members (n : Node) : Within (members n) (n.child? "body").toList := by
  rw [members]
  cases n.child? "body" with
  | none => exact .nil []
  | some body => exact (within_children body).trans (within_branches body)

theorem within_exported (n : Node) : Within (exported? n).toList n.branches := by
  cases h : n.child? "declaration" with
  | none =>
    rw [exported?, h, Option.none_or]
    exact within_below n "value" (.refl _)
  | some declared =>
    rw [exported?, h, Option.some_or, ← h]
    exact within_below n "declaration" (.refl _)

theorem within_alternative (n : Node) :
    Within (alternative? n).toList (n.child? "alternative").toList := by
  rw [alternative?]
  cases n.child? "alternative" with
  | none => exact .nil []
  | some other =>
    rw [Option.bind_some]
    split
    · exact within_head other
    · exact .refl [other]

theorem within_conditional (n : Node) :
    Within (under n ["condition", "consequence"] ++ (alternative? n).toList) n.branches := by
  have fields := within_of_picks n [("condition", (n.child? "condition").toList),
    ("consequence", (n.child? "consequence").toList), ("alternative", (alternative? n).toList)]
    (by simp) (by simp [within_alternative, Within.refl])
  rw [under_eq]
  simpa using fields

theorem within_clause (n : Node) : Within (clause? n).toList [n] := by
  rw [clause?]
  split
  · exact .nil [n]
  · split
    · exact within_head n
    · exact .refl [n]

theorem within_loopParts (n : Node) (loop : Loop) : Within (loopParts n loop) n.branches := by
  cases loop with
  | counting =>
    have header : Within ((under n ["initializer", "condition"]).filterMap clause?)
        (under n ["initializer", "condition"]) :=
      .filterMap fun c _ => within_clause c
    have fields : Within (under n (["initializer", "condition"] ++ ["increment", "body"]))
        n.branches :=
      within_under n (by simp)
    rw [under, List.filterMap_append] at fields
    exact (header.append (.refl (under n ["increment", "body"]))).trans fields
  | iterating => exact within_under n (by simp)
  | leading => exact within_under n (by simp)
  | trailing => exact within_under n (by simp)

theorem parts_caseTerms (clause : Node) :
    (caseTerms (α := α) clause).flatMap Term.parts
      = (clause.child? "value").toList ++ clause.fields "body" := by
  rw [caseTerms, List.flatMap_append]
  cases clause.child? "value" <;> simp [Term.parts]

theorem within_caseTerms (clause : Node) :
    Within ((caseTerms (α := α) clause).flatMap Term.parts) [clause] := by
  have body : (clause.fields "body").Sublist
      (clause.branches.filter fun c => c.field = some "body") := by
    rw [Node.fields, ← List.filter_filter]
    exact List.filter_sublist.filter _
  have fields := Within.under_fields clause.branches
    [("value", (clause.child? "value").toList), ("body", clause.fields "body")] (by simp)
    (by simpa using ⟨Within.of_sublist (child?_sublist clause "value"), Within.of_sublist body⟩)
  rw [parts_caseTerms]
  exact .trans (by simpa using fields) (within_branches clause)

theorem parts_switchRecipe (n : Node) :
    (switchRecipe (α := α) n).parts = under n ["value"]
      ++ (cases n).flatMap fun clause => (caseTerms (α := α) clause).flatMap Term.parts := by
  simp [switchRecipe, Recipe.parts, Term.parts, List.flatMap_assoc]

theorem within_switch (n : Node) : Within (switchRecipe (α := α) n).parts n.branches := by
  have clauses : Within ((cases n).flatMap fun c => (caseTerms (α := α) c).flatMap Term.parts)
      (n.child? "body").toList := by
    refine .trans (.flatMap fun c _ => within_caseTerms c) ?_
    exact (Within.of_sublist List.filter_sublist).trans (within_members n)
  have fields := within_of_picks n [("value", (n.child? "value").toList),
    ("body", (cases n).flatMap fun c => (caseTerms (α := α) c).flatMap Term.parts)] (by simp)
    (by simpa [Within.refl] using clauses)
  rw [parts_switchRecipe, under_eq]
  simpa using fields

theorem parts_handlerTerms (n : Node) :
    (handlerTerms (α := α) n).flatMap Term.parts
      = (n.child? "handler").toList.flatMap fun handler => under handler ["body"] := by
  rw [handlerTerms]
  cases n.child? "handler" with
  | none => rfl
  | some handler => by_cases h : bindsCaught n <;> simp [h, Term.parts]

theorem parts_finalizerTerms (n : Node) :
    (finalizerTerms (α := α) n).flatMap Term.parts
      = (n.child? "finalizer").toList.flatMap fun finalizer => under finalizer ["body"] := by
  rw [finalizerTerms]
  cases n.child? "finalizer" with
  | none => rfl
  | some finalizer => simp [Term.parts]

theorem parts_guardedRecipe (n : Node) :
    (guardedRecipe (α := α) n).parts = under n ["body"]
      ++ ((n.child? "handler").toList.flatMap (fun handler => under handler ["body"])
      ++ (n.child? "finalizer").toList.flatMap fun finalizer => under finalizer ["body"]) := by
  rw [guardedRecipe, Recipe.parts, List.cons_append, List.flatMap_cons, List.flatMap_append,
    parts_handlerTerms, parts_finalizerTerms]
  rfl

theorem within_guarded (n : Node) : Within (guardedRecipe (α := α) n).parts n.branches := by
  have body (found : Option Node) :
      Within (found.toList.flatMap fun clause => under clause ["body"]) found.toList :=
    .flatMap fun clause _ => within_under_below clause "body"
  have fields := within_of_picks n [("body", (n.child? "body").toList),
    ("handler", (n.child? "handler").toList.flatMap fun clause => under clause ["body"]),
    ("finalizer", (n.child? "finalizer").toList.flatMap fun clause => under clause ["body"])]
    (by simp) (by simp [body, Within.refl])
  rw [parts_guardedRecipe, under_eq]
  simpa using fields

/-! ### All forms -/

/-- What is scored for a node stands in different places below it. -/
theorem within_plan (n : Node) : Within (plan (α := α) n).parts n.branches := by
  rw [plan]
  cases Form.ofKind n.kind with
  | binary => exact within_sum (within_under n (by simp)) rfl
  | unary => exact within_sum (within_under n (by simp)) rfl
  | ternary => exact within_sum (within_under n (by simp)) rfl
  | call => exact within_call n
  | member => exact within_sum (within_under n (by simp)) rfl
  | subscript => exact within_sum (within_under n (by simp)) rfl
  | object => exact within_sum (within_memberValues n) rfl
  | array => exact within_sum (within_children n) rfl
  | declaration => exact within_sum (within_values n) (by split <;> rfl)
  | function => exact within_sum (within_under n (by simp)) rfl
  | classBody => exact within_sum (within_below n "body" (within_members n)) rfl
  | classField => exact within_sum (within_under n (by simp)) rfl
  | exported => exact within_sum (within_exported n) rfl
  | conditional => exact within_sum (within_conditional n) rfl
  | loop loop => exact within_sum (within_loopParts n loop) rfl
  | switch => exact within_switch n
  | guarded => exact within_guarded n
  | block => exact within_sum (within_children n) rfl
  | wrapper => exact within_sum (within_children n) rfl
  | transparent =>
    have first := within_children n
    rw [planOfForm]
    cases h : n.children with
    | nil => exact .nil n.branches
    | cons c rest =>
      rw [h] at first
      exact .trans (.of_sublist (by simp [Plan.parts])) first
  | plain => exact .nil n.branches

theorem sizeAll_plan_lt (n : Node) : Node.sizeAll (plan (α := α) n).parts < n.size := by
  have := (within_plan (α := α) n).sizeAll_le
  rw [n.size_eq]
  omega

theorem size_lt_of_mem_plan {n p : Node} (h : p ∈ (plan (α := α) n).parts) : p.size < n.size :=
  Nat.lt_of_le_of_lt (Node.size_le_sizeAll h) (sizeAll_plan_lt n)

variable (α) in
/-- What holds of a node whenever it holds of all parts that are scored for it holds of all
nodes. -/
@[elab_as_elim]
theorem part_induction {motive : Node → Prop}
    (step : ∀ n, (∀ p ∈ (plan (α := α) n).parts, motive p) → motive n) (n : Node) : motive n :=
  step n fun p _ => part_induction step p
termination_by n.size
decreasing_by exact size_lt_of_mem_plan ‹_›

end ComplexityMeter.Score
