import ComplexityMeter.Score.Visit

/-!
# Formulas of forms

The score of a node as one expression in the scores of its parts, form by form. What the rules
compose, step by step, from the results of the parts is the result of the formula.
-/

namespace ComplexityMeter.Score

open Syntax (Node)

variable {α : Type} [Scalar α]

def scoreSum (results : List (Result α)) : α :=
  Scalar.sum (results.map Result.score)

section

variable (result : Node → Result α) (n : Node)

def callFormula : Result α :=
  let callee := (callee? n).toList.map result
  let args := (arguments n).map result
  resultOf n (1.0 + scoreSum callee + scoreSum args * argumentFactor args.length) (callee ++ args)
    [countFact "argument_count" args.length]

def declarationFormula : Result α :=
  let declared := declarators n
  let values := (declared.filterMap fun d => d.child? "value").map result
  let score := 1.0 + scoreSum values
  resultOf n (if isMutable n then score * mutabilityFactor declared.length else score) values
    [("binding", .text (binding n)), countFact "declarator_count" declared.length,
      truthFact "mutable" (isMutable n)]

/-- What a case adds to the score of a switch: its test with a factor, then its statements. -/
def afterCase (score : α) (clause : Node) : α :=
  let tested := match clause.child? "value" with
    | none => score
    | some test => score + scoreSum [result test] * 0.3
  tested + scoreSum ((clause.fields "body").map result)

def switchFormula : Result α :=
  let value := (under n ["value"]).map result
  let clauses := (cases n).flatMap fun clause =>
    ((clause.child? "value").toList ++ clause.fields "body").map result
  resultOf n
    ((cases n).foldl (afterCase result) (1.0 + scoreSum value) + 0.5 * ((cases n).length : α))
    (value ++ clauses) [countFact "case_count" (cases n).length]

def afterHandler (score : α) : α :=
  match n.child? "handler" with
  | none => score
  | some handler =>
    let caught := score + scoreSum ((under handler ["body"]).map result) + 2.0
    if bindsCaught n then caught + 0.5 else caught

def afterFinalizer (score : α) : α :=
  match n.child? "finalizer" with
  | none => score
  | some finalizer => score + scoreSum ((under finalizer ["body"]).map result) + 1.5

def guardedFormula : Result α :=
  let bodies := (under n ["body"]
    ++ (n.child? "handler").toList.flatMap (fun handler => under handler ["body"])
    ++ (n.child? "finalizer").toList.flatMap (fun finalizer => under finalizer ["body"])).map result
  resultOf n
    (afterFinalizer result n (afterHandler result n
      (1.0 + scoreSum ((under n ["body"]).map result)))) bodies
    [truthFact "has_catch" (n.child? "handler").isSome,
      truthFact "has_finally" (n.child? "finalizer").isSome,
      truthFact "catch_binds" (bindsCaught n)]

/-- The base score plus the scores of some parts, and what else the form weighs. -/
def sumFormula (parts : List Node) (weigh : α → α) (facts : Entries (Value α)) : Result α :=
  resultOf n (weigh (1.0 + scoreSum (parts.map result))) (parts.map result) facts

/-- The result of a node by the formula of its form. -/
def formula : Result α :=
  match Form.ofKind n.kind with
  | .binary =>
    sumFormula result n (under n ["left", "right"]) (· + operatorWeight (operator n))
      [tokenFact "operator" (operator n)]
  | .unary =>
    sumFormula result n (under n ["argument"]) (· + unaryWeight n)
      [tokenFact "operator" (n.token? "operator"), truthFact "prefix" (standsBefore n)]
  | .ternary => sumFormula result n (under n ["condition", "consequence", "alternative"]) id []
  | .call => callFormula result n
  | .member => sumFormula result n (under n ["object"]) id []
  | .subscript => sumFormula result n (under n ["object", "index"]) id []
  | .object =>
    sumFormula result n (memberValues n) id [countFact "property_count" (memberValues n).length]
  | .array => sumFormula result n n.children id [countFact "element_count" n.children.length]
  | .declaration => declarationFormula result n
  | .function => sumFormula result n (under n ["body"]) id []
  | .classBody =>
    sumFormula result n (members n) id
      [countFact "member_count" (members n).length, truthFact "has_heritage" (hasHeritage n)]
  | .classField => sumFormula result n (under n ["value"]) id []
  | .exported => sumFormula result n (exported? n).toList id []
  | .conditional =>
    sumFormula result n (under n ["condition", "consequence"] ++ (alternative? n).toList) (· + 0.5)
      [truthFact "has_else" (alternative? n).isSome]
  | .loop loop =>
    sumFormula result n (loopParts n loop) (· + loopWeight loop)
      [("loop_kind", .text (loopName n loop))]
  | .switch => switchFormula result n
  | .guarded => guardedFormula result n
  | .block =>
    sumFormula result n n.children (· + 0.1 * (n.children.length : α))
      [countFact "statement_count" n.children.length]
  | .wrapper => sumFormula result n n.children id []
  | .transparent =>
    match n.children with
    | [] => resultOf n 1.0 [] []
    | first :: _ => result first
  | .plain => resultOf n 1.0 [] []

end

/-! ### Recipes by steps -/

/-- The score that steps reach from a score, given the results of their parts. -/
def reached (result : Node → Result α) (score : α) (terms : List (Term α Node)) : α :=
  (terms.map fun t => (t.map result).map Result.score).foldl Term.apply score

section

variable (result : Node → Result α) (score : α)

@[simp] theorem reached_nil : reached result score [] = score := rfl

@[simp] theorem reached_sum (ps : List Node) (terms : List (Term α Node)) :
    reached result score (.sum ps :: terms)
      = reached result (score + scoreSum (ps.map result)) terms := rfl

@[simp] theorem reached_scaled (factor : α) (ps : List Node) (terms : List (Term α Node)) :
    reached result score (.scaled factor ps :: terms)
      = reached result (score + scoreSum (ps.map result) * factor) terms := rfl

@[simp] theorem reached_plus (weight : α) (terms : List (Term α Node)) :
    reached result score (.plus weight :: terms) = reached result (score + weight) terms := rfl

@[simp] theorem reached_times (factor : α) (terms : List (Term α Node)) :
    reached result score (.times factor :: terms) = reached result (score * factor) terms := rfl

@[simp] theorem reached_append (terms more : List (Term α Node)) :
    reached result score (terms ++ more) = reached result (reached result score terms) more := by
  simp [reached]

theorem reached_caseTerms (clause : Node) :
    reached result score (caseTerms clause) = afterCase result score clause := by
  rw [caseTerms, afterCase]
  cases clause.child? "value" with
  | none => rfl
  | some test => rfl

theorem reached_cases (clauses : List Node) :
    reached result score (clauses.flatMap caseTerms) = clauses.foldl (afterCase result) score := by
  induction clauses generalizing score with
  | nil => rfl
  | cons clause rest ih =>
    rw [List.flatMap_cons, reached_append, ih, reached_caseTerms, List.foldl_cons]

theorem reached_handlerTerms (n : Node) :
    reached result score (handlerTerms n) = afterHandler result n score := by
  rw [handlerTerms, afterHandler]
  cases n.child? "handler" with
  | none => rfl
  | some handler => by_cases h : bindsCaught n <;> simp [h]

theorem reached_finalizerTerms (n : Node) :
    reached result score (finalizerTerms n) = afterFinalizer result n score := by
  rw [finalizerTerms, afterFinalizer]
  cases n.child? "finalizer" with
  | none => rfl
  | some finalizer => rfl

end

theorem composed_recipe (result : Node → Result α) (n : Node) (r : Recipe α Node) :
    composed n (Plan.map result (.recipe r))
      = resultOf n (reached result 1.0 r.terms) (r.parts.map result) r.facts := by
  rw [Plan.map, composed, Recipe.parts_map]
  simp [Recipe.value, reached, Recipe.map, Function.comp_def]

theorem composed_sum (result : Node → Result α) (n : Node) (ps : List Node)
    (weights : List (Term α Node)) (facts : Entries (Value α))
    (fixed : weights.flatMap Term.parts = []) :
    composed n (Plan.map result (.recipe ⟨.sum ps :: weights, facts⟩))
      = sumFormula result n ps (fun score => reached result score weights) facts := by
  rw [composed_recipe, Recipe.parts, List.flatMap_cons, fixed, List.append_nil]
  rfl

/-- What the rule of a node composes from the results of its parts is what its formula says. -/
theorem composed_plan (result : Node → Result α) (n : Node) :
    composed n ((plan n).map result) = formula result n := by
  rw [plan, formula]
  cases Form.ofKind n.kind with
  | binary => exact composed_sum result n _ _ _ rfl
  | unary => exact composed_sum result n _ _ _ rfl
  | ternary => exact composed_sum result n _ _ _ rfl
  | call =>
    rw [planOfForm, composed_recipe, parts_callRecipe]
    simp [callFormula, callRecipe]
  | member => exact composed_sum result n _ _ _ rfl
  | subscript => exact composed_sum result n _ _ _ rfl
  | object => exact composed_sum result n _ _ _ rfl
  | array => exact composed_sum result n _ _ _ rfl
  | declaration =>
    rw [planOfForm, declarationRecipe, composed_sum result n _ _ _ (by split <;> rfl)]
    by_cases mutable : isMutable n <;> simp [declarationFormula, sumFormula, mutable]
  | function => exact composed_sum result n _ _ _ rfl
  | classBody => exact composed_sum result n _ _ _ rfl
  | classField => exact composed_sum result n _ _ _ rfl
  | exported => exact composed_sum result n _ _ _ rfl
  | conditional => exact composed_sum result n _ _ _ rfl
  | loop loop => exact composed_sum result n _ _ _ rfl
  | switch =>
    rw [planOfForm, composed_recipe, parts_switchRecipe]
    simp [switchFormula, switchRecipe, reached_cases, parts_caseTerms, List.map_flatMap]
  | guarded =>
    rw [planOfForm, composed_recipe, parts_guardedRecipe]
    simp [guardedFormula, guardedRecipe, reached_handlerTerms, reached_finalizerTerms]
  | block => exact composed_sum result n _ _ _ rfl
  | wrapper => exact composed_sum result n _ _ _ rfl
  | transparent =>
    dsimp only [planOfForm]
    cases n.children with
    | nil => rfl
    | cons first rest => rfl
  | plain => rfl

end ComplexityMeter.Score
