import Mathlib.Data.List.Basic
import ComplexityMeter.Proofs.Runs
import ComplexityMeter.Proofs.Score.Growth
import ComplexityMeter.Proofs.Syntax.View
import ComplexityMeter.Score.File

/-!
# Scores under the view

Rules read a tree through the view alone. Where a map of trees keeps what the view shows, a rule
picks the images of the parts that it picked before, with the same weights and facts; and where it
does so at all nodes of a tree, the tree and its image have the very same result.
-/

namespace ComplexityMeter.Score

open Syntax (Node Tree)

/-- A map keeps what the view shows under the fields of all nodes of a tree, and what it shows of
all nodes but blocks as a whole. -/
structure Maps (f : Node → Node) (n : Node) : Prop where
  shows : ∀ m ∈ n.nodes, m.Shows f
  reads : ∀ m ∈ n.nodes, m.kind ≠ "statement_block" → m.Reads f

variable {α : Type} [Scalar α] {f : Node → Node} {n m : Node}

namespace Maps

theorem of_mem (h : Maps f n) (hm : m ∈ n.nodes) : Maps f m where
  shows o ho := h.shows o (Node.mem_nodes_trans hm ho)
  reads o ho := h.reads o (Node.mem_nodes_trans hm ho)

theorem child (h : Maps f n) {name : String} (found : n.child? name = some m) : Maps f m :=
  h.of_mem (Node.mem_nodes_of_child? found)

theorem self (h : Maps f n) : n.Shows f :=
  h.shows n n.mem_nodes_self

theorem whole (h : Maps f n) (kind : n.kind ≠ "statement_block") : n.Reads f :=
  h.reads n n.mem_nodes_self kind

end Maps

/-! ### What rules read -/

section

variable (h : n.Shows f)
include h

theorem under_map (names : List String) : under (f n) names = (under n names).map f := by
  rw [under, under, List.map_filterMap]
  exact List.filterMap_congr fun name _ => h.child?_eq name

theorem operator_map : operator (f n) = operator n := by
  rw [operator, operator, h.kind_eq, h.token?_eq]

theorem callee?_map : callee? (f n) = (callee? n).map f := by
  rw [callee?, callee?, h.child?_eq, h.child?_eq]
  cases n.child? "function" <;> simp

theorem exported?_map : exported? (f n) = (exported? n).map f := by
  rw [exported?, exported?, h.child?_eq, h.child?_eq]
  cases n.child? "declaration" <;> simp

theorem caseTerms_map : caseTerms (α := α) (f n) = (caseTerms n).map (Term.map f) := by
  rw [caseTerms, caseTerms, h.child?_eq, h.fields_eq]
  cases n.child? "value" <;> simp [Term.map]

end

theorem values_map (declared : List Node) (h : ∀ d ∈ declared, d.Shows f) :
    ((declared.map f).filterMap fun d => d.child? "value")
      = (declared.filterMap fun d => d.child? "value").map f := by
  rw [List.filterMap_map, List.map_filterMap]
  exact List.filterMap_congr fun d hd => (h d hd).child?_eq "value"

theorem members_map (h : n.Shows f) (body : ∀ m, n.child? "body" = some m → m.Reads f) :
    members (f n) = (members n).map f := by
  rw [members, members, h.child?_eq]
  cases found : n.child? "body" with
  | none => rfl
  | some m => exact (body m found).children_eq

theorem mem_nodes_of_mem_members (hm : m ∈ members n) : m ∈ n.nodes :=
  ((within_members n).trans (within_child?_below n "body")).mem_nodes hm

theorem cases_map (body : members (f n) = (members n).map f)
    (below : ∀ c ∈ members n, c.Shows f) : cases (f n) = (cases n).map f := by
  rw [cases, body, List.filter_map, cases]
  refine congrArg (List.map f) (List.filter_congr fun c hc => ?_)
  rw [Function.comp_apply, isCase, (below c hc).kind_eq, isCase]

theorem flatMap_caseTerms_map {clauses : List Node} (h : ∀ c ∈ clauses, c.Shows f) :
    (clauses.map f).flatMap (caseTerms (α := α))
      = (clauses.flatMap caseTerms).map (Term.map f) := by
  rw [List.flatMap_map, List.map_flatMap]
  exact List.flatMap_congr fun c hc => caseTerms_map (h c hc)

theorem parameterNodes_map (h : n.Shows f)
    (list : ∀ m, n.child? "parameters" = some m → m.Reads f) :
    parameterNodes (f n) = (parameterNodes n).map f := by
  rw [parameterNodes, parameterNodes, h.child?_eq]
  cases found : n.child? "parameters" with
  | none => rfl
  | some m => exact (list m found).children_eq

section

variable (h : Maps f n)
include h

theorem arguments_map : arguments (f n) = (arguments n).map f := by
  rw [arguments, arguments, h.self.child?_eq]
  cases found : n.child? "arguments" with
  | none => rfl
  | some list =>
    rw [Option.map_some]
    dsimp only
    rw [(h.child found).self.kind_eq]
    split
    case isTrue kind => exact ((h.child found).whole (by rw [kind]; decide)).children_eq
    case isFalse => rfl

theorem alternative?_map : alternative? (f n) = (alternative? n).map f := by
  rw [alternative?, alternative?, h.self.child?_eq]
  cases found : n.child? "alternative" with
  | none => rfl
  | some other =>
    rw [Option.map_some, Option.bind_some, Option.bind_some, (h.child found).self.kind_eq]
    split
    case isTrue kind =>
      rw [((h.child found).whole (by rw [kind]; decide)).children_eq]
      exact List.head?_map ..
    case isFalse => rfl

theorem clause?_map : clause? (f n) = (clause? n).map f := by
  rw [clause?, clause?, h.self.kind_eq]
  split
  · rfl
  · split
    case isTrue kind =>
      rw [(h.whole (by rw [kind]; decide)).children_eq]
      exact List.head?_map ..
    case isFalse => rfl

theorem loopParts_map (loop : Loop) : loopParts (f n) loop = (loopParts n loop).map f := by
  cases loop with
  | counting =>
    have header : (under (f n) ["initializer", "condition"]).filterMap clause?
        = ((under n ["initializer", "condition"]).filterMap clause?).map f := by
      rw [under_map h.self, List.filterMap_map, List.map_filterMap]
      refine List.filterMap_congr fun c hc => ?_
      obtain ⟨name, _, found⟩ := List.mem_filterMap.1 hc
      exact clause?_map (h.child found)
    rw [loopParts, loopParts, header, under_map h.self, List.map_append]
  | iterating => exact under_map h.self _
  | leading => exact under_map h.self _
  | trailing => exact under_map h.self _

theorem bindsCaught_map : bindsCaught (f n) = bindsCaught n := by
  rw [bindsCaught, bindsCaught, h.self.child?_eq]
  cases found : n.child? "handler" with
  | none => rfl
  | some handler =>
    rw [Option.map_some, Option.bind_some, Option.bind_some, (h.child found).self.child?_eq,
      Option.isSome_map]

theorem handlerTerms_map :
    handlerTerms (α := α) (f n) = (handlerTerms n).map (Term.map f) := by
  rw [handlerTerms, handlerTerms, h.self.child?_eq]
  cases found : n.child? "handler" with
  | none => rfl
  | some handler =>
    have body := under_map (h.child found).self ["body"]
    by_cases binds : bindsCaught n <;> simp [bindsCaught_map h, binds, body, Term.map]

theorem finalizerTerms_map :
    finalizerTerms (α := α) (f n) = (finalizerTerms n).map (Term.map f) := by
  rw [finalizerTerms, finalizerTerms, h.self.child?_eq]
  cases found : n.child? "finalizer" with
  | none => rfl
  | some finalizer => simp [under_map (h.child found).self, Term.map]

end

section

variable (h : n.Reads f)
include h

theorem standsBefore_map : standsBefore (f n) = standsBefore n := by
  by_cases update : n.kind = "update_expression"
  · rw [standsBefore, h.kind_eq, h.firstToken?_eq (.inl update), standsBefore]
  · simp [standsBefore, h.kind_eq, update]

theorem unaryWeight_map : unaryWeight (α := α) (f n) = unaryWeight n := by
  rw [unaryWeight, unaryWeight, h.token?_eq, standsBefore_map h]

theorem declarators_map (below : ∀ c ∈ n.children, c.Shows f) :
    declarators (f n) = (declarators n).map f := by
  rw [declarators, h.children_eq, List.filter_map, declarators]
  refine congrArg (List.map f) (List.filter_congr fun c hc => ?_)
  rw [Function.comp_apply, (below c hc).kind_eq]

theorem memberValues_map (below : ∀ c ∈ n.children, c.Shows f) :
    memberValues (f n) = (memberValues n).map f := by
  rw [memberValues, h.children_eq, List.flatMap_map, memberValues, List.map_flatMap]
  refine List.flatMap_congr fun c hc => ?_
  rw [(below c hc).kind_eq, under_map (below c hc)]
  split <;> rfl

theorem hasHeritage_map (below : ∀ c ∈ n.children, c.Shows f) :
    hasHeritage (f n) = hasHeritage n := by
  rw [hasHeritage, h.childOfKind?_map fun c hc => (below c hc).kind_eq, Option.isSome_map,
    hasHeritage]

theorem loopName_map (loop : Loop) : loopName (f n) loop = loopName n loop := by
  cases loop <;> simp [loopName, h.hasOf_eq]

theorem binding_map (form : Form.ofKind n.kind = .declaration) : binding (f n) = binding n := by
  have kinds : n.kind = "lexical_declaration" ∨ n.kind = "variable_declaration" := by
    simpa [Form.kinds] using Form.mem_kinds_of_ofKind form (by decide)
  rcases kinds with lexical | var
  · rw [binding, binding, h.kind_eq, h.token?_eq, h.firstToken?_eq (.inr lexical)]
  · simp [binding, h.kind_eq, var]

theorem isMutable_map (form : Form.ofKind n.kind = .declaration) :
    isMutable (f n) = isMutable n := by
  rw [isMutable, isMutable, binding_map h form]

end

/-! ### Plans -/

/-- The forms whose rules read what stands in a block or a body. -/
def Form.holdsBody (form : Form) : Prop :=
  form = .classBody ∨ form = .switch ∨ form = .block

/-- A node and its image are scored by the same plan, over the images of the parts. -/
theorem plan_map (h : Maps f n)
    (bodies : (Form.ofKind n.kind).holdsBody → n.ReadsAll f) :
    plan (α := α) (f n) = (plan n).map f := by
  have below : ∀ c ∈ n.children, c.Shows f :=
    fun c hc => h.shows c (Node.mem_nodes_of_mem_children hc)
  have whole : n.Reads f := by
    by_cases block : n.kind = "statement_block"
    · exact (bodies (.inr (.inr (by rw [block]; decide)))).self
    · exact h.whole block
  have children := whole.children_eq
  have fields := under_map h.self
  have body (holds : (Form.ofKind n.kind).holdsBody) : members (f n) = (members n).map f :=
    members_map h.self fun m found => ((bodies holds).child found).self
  rw [plan, plan, h.self.kind_eq]
  cases form : Form.ofKind n.kind with
  | binary =>
    simp [planOfForm, binaryRecipe, operator_map h.self, fields, Plan.map, Recipe.map, Term.map]
  | unary =>
    simp [planOfForm, unaryRecipe, unaryWeight_map whole, standsBefore_map whole,
      h.self.token?_eq, fields, Plan.map, Recipe.map, Term.map]
  | call =>
    simp [planOfForm, callRecipe, callee?_map h.self, arguments_map h, Option.toList_map, Plan.map,
      Recipe.map, Term.map]
  | object =>
    simp [planOfForm, objectRecipe, memberValues_map whole below, Plan.map, Recipe.map, Term.map]
  | declaration =>
    have values := values_map (declarators n) fun d hd => below d (List.mem_filter.1 hd).1
    simp only [planOfForm, declarationRecipe, declarators_map whole below, values,
      isMutable_map whole form, binding_map whole form, List.length_map, Plan.map, Recipe.map,
      List.map_cons, Term.map]
    split <;> rfl
  | classBody =>
    simp [planOfForm, classRecipe, body (.inl form), hasHeritage_map whole below, Plan.map,
      Recipe.map, Term.map]
  | exported =>
    simp [planOfForm, partsOnly, exported?_map h.self, Option.toList_map, Plan.map, Recipe.map,
      Term.map]
  | conditional =>
    simp [planOfForm, conditionalRecipe, alternative?_map h, Option.toList_map, fields, Plan.map,
      Recipe.map, Term.map]
  | loop loop =>
    simp [planOfForm, loopRecipe, loopParts_map h, loopName_map whole, Plan.map, Recipe.map,
      Term.map]
  | switch =>
    have shown : ∀ c ∈ members n, c.Shows f := fun c hc => h.shows c (mem_nodes_of_mem_members hc)
    have clauses := cases_map (body (.inr (.inl form))) shown
    have steps := flatMap_caseTerms_map (α := α) fun c (hc : c ∈ cases n) =>
      shown c (List.mem_filter.1 hc).1
    simp [planOfForm, switchRecipe, clauses, steps, fields, Plan.map, Recipe.map, Term.map]
  | guarded =>
    simp [planOfForm, guardedRecipe, fields, handlerTerms_map h, finalizerTerms_map h,
      bindsCaught_map h, h.self.child?_eq, Plan.map, Recipe.map, Term.map]
  | transparent =>
    simp only [planOfForm, children]
    cases n.children <;> rfl
  | _ =>
    simp [planOfForm, partsOnly, arrayRecipe, blockRecipe, children, fields, Plan.map, Recipe.map,
      Term.map]

/-! ### Results -/

omit [Scalar α] in
theorem resultOf_map (h : n.Shows f) :
    resultOf (α := α) (f n) = resultOf n := by
  funext score parts facts
  rw [resultOf, h.kind_eq, h.startLine_eq, h.endLine_eq, resultOf]

theorem estimate_map (h : Maps f n) : estimate (α := α) (f n) = estimate n := by
  rw [estimate, estimate, h.self.kind_eq, operator_map h.self, arguments_map h, List.length_map]

/-- A tree whose nodes all read like their images is scored like its image. -/
theorem visit_map (h : n.ReadsAll f) : visit (α := α) (f n) = visit n := by
  induction n using part_induction α with
  | step n ih =>
    have maps : Maps f n := ⟨fun m hm => (h m hm).toShows, fun m hm _ => h m hm⟩
    have parts : (plan (α := α) (f n)).mapM (visit (α := α)) = (plan n).mapM visit := by
      rw [plan_map maps fun _ => h, Plan.mapM_map]
      refine Plan.mapM_congr fun p hp => ih p hp (h.of_mem ?_)
      exact nodesAll_plan_subset (α := α) n (Node.nodes_subset_nodesAll hp p.mem_nodes_self)
    have result := resultOf_map (α := α) maps.self
    have cutOff : truncated (α := α) (f n) = truncated n := by rw [truncated, result, truncated]
    have repeated : circular (α := α) (f n) = circular n := by
      rw [circular, result, estimate_map maps, circular]
    have entered : Context.enter (f n) = Context.enter n := by
      funext c
      rw [Context.enter, maps.self.identity_eq, Context.enter]
    have composed : Score.composed (α := α) (f n) = Score.composed n := by
      funext scored
      cases scored with
      | recipe scored => exact congrFun (congrFun (congrFun result _) _) _
      | inner result => rfl
    rw [visit_eq, visit_eq, parts, cutOff, repeated, entered, composed, maps.self.identity_eq]

theorem scoreAlone_map (h : n.ReadsAll f) (ceiling : Ceiling) :
    scoreAlone (α := α) ceiling (f n) = scoreAlone ceiling n := by
  rw [scoreAlone, Context.score, visit_map h, scoreAlone, Context.score]

/-! ### Files -/

theorem declarationWeight_map (h : n.ReadsAll f) :
    declarationWeight (α := α) (f n) = declarationWeight n := by
  have whole := h.self
  have body := members_map whole.toShows fun m found => (h.child found).self
  have list := parameterNodes_map whole.toShows fun m found => (h.child found).self
  have heritage := hasHeritage_map whole h.shown
  simp only [declarationWeight, whole.kind_eq, body, list, heritage, List.length_map]

theorem statementWeight_map (h : n.ReadsAll f) :
    statementWeight (α := α) (f n) = statementWeight n := by
  have whole := h.self
  rw [statementWeight, statementWeight, weighed?, weighed?, whole.kind_eq, whole.child?_eq]
  split
  · cases found : n.child? "declaration" with
    | none => rfl
    | some declared =>
      have below := declarationWeight_map (α := α) (h.child found)
      simp [below]
  · simp [declarationWeight_map h]

theorem scoreFile_map {t : Tree} (h : t.root.ReadsAll f) (ceiling : Ceiling) :
    scoreFile (α := α) ceiling { t with root := f t.root } = scoreFile ceiling t := by
  have whole := h.self
  have context : fileContext ceiling { t with root := f t.root } = fileContext ceiling t := by
    simp [fileContext, whole.identity_eq]
  have results : statementResults (α := α) ceiling { t with root := f t.root }
      = statementResults ceiling t := by
    have visits : (t.root.children.map f).mapM (visit (α := α)) = t.root.children.mapM visit := by
      rw [List.mapM_map]
      exact mapM_congr fun n hn => visit_map (h.visible hn)
    simp only [statementResults, context, whole.children_eq, visits]
  have weights : (t.root.children.map f).map (statementWeight (α := α))
      = t.root.children.map statementWeight := by
    rw [List.map_map]
    exact List.map_congr_left fun n hn => statementWeight_map (h.visible hn)
  simp only [scoreFile, results, whole.children_eq, weights, whole.kind_eq, whole.endLine_eq,
    List.length_map]

end ComplexityMeter.Score
