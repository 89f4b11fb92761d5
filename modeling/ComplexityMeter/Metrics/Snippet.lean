import ComplexityMeter.Metrics.Category
import ComplexityMeter.Metrics.Mutation
import ComplexityMeter.Score.Visit
import ComplexityMeter.Syntax.Tree

/-!
# Metrics of a snippet

Every visible node of a tree makes charges under the six categories. A category scores the sum of
the charges made under it, the total one more than all of them, and a charge that stands out is a
hotspot. What an expression costs is its score, each expression scored on its own.
-/

namespace ComplexityMeter.Metrics

open Syntax (Node Tree)
open Score (Ceiling Form Result)

/-- Why a place is a hotspot. -/
inductive Reason (α : Type) where
  | reassigned (name : String) (count : Nat)
  | crowdedScope (symbols : Nat)
  | condition (score : α)
  | manyCases (count : Nat)
  | function (score : α)
  | guarded (score : α)
  /-- A reason given in words. -/
  | other (text : String)

/-- An expensive place, by the kind of its node and its first line. -/
structure Hotspot (α : Type) where
  kind : String
  line : Int
  score : α
  reason : Reason α

/-- What one rule adds at one node. -/
structure Charge (α : Type) where
  category : Category
  amount : α
  /-- The place, if the rule takes it for a possible hotspot. -/
  hotspot : Option (Hotspot α)
  /-- The expressions that were scored to find the amount. -/
  scored : List (Result α)

/-- The metrics of a snippet. -/
structure Record (α : Type) where
  total : α
  score : Category → α
  hotspots : List (Hotspot α)

variable {α : Type} [Scalar α]

/-- A charge, and a hotspot at a node if there is a reason. -/
def charge (category : Category) (n : Node) (amount : α) (reason : Option (Reason α))
    (scored : List (Result α)) : Charge α :=
  ⟨category, amount, reason.map fun why => ⟨n.kind, n.startLine, amount, why⟩, scored⟩

/-! ### Variables and scopes -/

def isLet (n : Node) : Bool :=
  n.kind = "lexical_declaration" && n.token? "kind" = some "let"

/-- The declarators of a reassignable declaration that declare a plain name, with that name. -/
def letNames (n : Node) : List (Node × String) :=
  if isLet n then
    n.children.filterMap fun d =>
      if d.kind = "variable_declarator" then
        ((d.child? "name").filter isIdentifier).map fun name => (d, name.text)
      else none
  else []

/-- Each reassigned name is charged the number of its writes. -/
def mutabilityCharges (written : List String) (n : Node) : List (Charge α) :=
  (letNames n).filterMap fun (declarator, name) =>
    let count := written.count name
    if count = 0 then none
    else some (charge .mutability declarator (count : α) (some (.reassigned name count)) [])

def symbolKinds : List String :=
  ["variable_declarator", "required_parameter", "optional_parameter", "function_declaration",
    "generator_function_declaration", "class_declaration", "abstract_class_declaration",
    "interface_declaration", "type_alias_declaration"]

/-- Whether a node declares a symbol. An arrow function declares its parameter if that stands
bare. -/
def declaresSymbol (n : Node) : Bool :=
  symbolKinds.contains n.kind || (n.kind = "arrow_function" && (n.child? "parameter").isSome)

def isScope (n : Node) : Bool :=
  n.kind = "statement_block" || n.kind = "program"

/-- The symbols declared anywhere in a scope. -/
def symbolCount (scope : Node) : Nat :=
  scope.walk.countP declaresSymbol

def scopeCharges (n : Node) : List (Charge α) :=
  if isScope n then
    let symbols := symbolCount n
    let reason := if 5 < symbols then some (.crowdedScope symbols) else none
    [charge .scope n ((symbols : α) * 0.5) reason []]
  else []

def assignmentCharges (n : Node) : List (Charge α) :=
  if n.kind = "assignment_expression" then [charge .assignment n 1.0 none []] else []

/-! ### Functions -/

def isFunction (n : Node) : Bool :=
  Form.ofKind n.kind = .function

def parameterCount (function : Node) : Nat :=
  match function.child? "parameters" with
  | some list => list.children.length
  | none => if (function.child? "parameter").isSome then 1 else 0

/-- The expressions that make up the body of a function: of a block the first expression of each
expression or return statement, otherwise the body itself. -/
def bodyExpressions (function : Node) : List Node :=
  match function.child? "body" with
  | none => []
  | some body =>
    if body.kind = "statement_block" then
      body.children.filterMap fun statement =>
        if statement.kind = "expression_statement" ∨ statement.kind = "return_statement" then
          statement.children.head?
        else none
    else [body]

/-- The body of a function costs one and what its expressions score. -/
def bodyComplexity (scored : List (Result α)) : α :=
  scored.foldl (fun sum r => sum + r.score) 1.0

/-- A function is taken to be called once for every two units of its body, and at least once;
each call costs the body and the parameters. -/
def functionAmount (body : α) (parameters : Nat) : α :=
  let calls := max 1 (Scalar.ceil (body / 2.0))
  (calls : α) * (body + (parameters : α))

def functionCharges (ceiling : Ceiling) (n : Node) : List (Charge α) :=
  if isFunction n then
    let scored : List (Result α) := (bodyExpressions n).map (Score.scoreAlone ceiling)
    let amount := functionAmount (bodyComplexity scored) (parameterCount n)
    let reason := if (5.0 : α) < amount then some (.function amount) else none
    [charge .function n amount reason scored]
  else []

/-! ### Branches and failures -/

/-- What an expression costs, and zero where there is none. -/
def expressionCost (scored : Option (Result α)) : α :=
  (scored.map Result.score).getD 0.0

def conditionCharges (ceiling : Ceiling) (n : Node) : List (Charge α) :=
  if n.kind = "if_statement" then
    let scored := (n.child? "condition").map (Score.scoreAlone ceiling)
    let amount : α := expressionCost scored
    let reason := if (2.0 : α) < amount then some (.condition amount) else none
    [charge .conditional n amount reason scored.toList]
  else []

def switchCharges (n : Node) : List (Charge α) :=
  if n.kind = "switch_statement" then
    let count := (Score.cases n).length
    let reason := if 5 < count then some (.manyCases count) else none
    [charge .conditional n ((count : α) * 0.5) reason []]
  else []

def throwCharges (ceiling : Ceiling) (n : Node) : List (Charge α) :=
  if n.kind = "throw_statement" then
    let scored := n.children.head?.map (Score.scoreAlone ceiling)
    [charge .exception n (1.0 + expressionCost scored) none scored.toList]
  else []

/-- The cost of a try statement: its lines, its handler and its finalizer. -/
def guardedAmount (n : Node) : α :=
  let start : α := 1.0
  let lines :=
    match n.child? "body" with
    | none => start
    | some block => start + ((block.endLine - block.startLine + 1 : Int) : α) * 0.5
  let caught :=
    match n.child? "handler" with
    | none => lines
    | some handler =>
      if (handler.child? "parameter").isSome then lines + 2.0 + 0.5 else lines + 2.0
  if (n.child? "finalizer").isSome then caught + 1.5 else caught

def guardedCharges (n : Node) : List (Charge α) :=
  if n.kind = "try_statement" then
    let amount : α := guardedAmount n
    let reason := if (5.0 : α) < amount then some (.guarded amount) else none
    [charge .exception n amount reason []]
  else []

/-! ### The metrics -/

/-- The charges of one node, in the order of the rules. -/
def nodeCharges (ceiling : Ceiling) (written : List String) (n : Node) : List (Charge α) :=
  mutabilityCharges written n ++ scopeCharges n ++ assignmentCharges n ++ functionCharges ceiling n
    ++ conditionCharges ceiling n ++ switchCharges n ++ throwCharges ceiling n ++ guardedCharges n

/-- All charges of a tree in the order of the walk. -/
def charges (ceiling : Ceiling) (root : Node) : List (Charge α) :=
  root.walk.flatMap (nodeCharges ceiling (writes root))

def accumulate (start : α) (cs : List (Charge α)) : α :=
  cs.foldl (fun sum c => sum + c.amount) start

/-- The hotspots of charges that reach a least score, highest score first. -/
def hotspotsOf (least : α) (cs : List (Charge α)) : List (Hotspot α) :=
  ((cs.filterMap Charge.hotspot).filter fun h => decide (least ≤ h.score)).mergeSort
    fun a b => decide (b.score ≤ a.score)

/-- The metrics that charges add up to. -/
def recordOf (least : α) (cs : List (Charge α)) : Record α :=
  { total := accumulate 1.0 cs
    score := fun category =>
      accumulate 0.0 (cs.filter fun c => decide (c.category = category))
    hotspots := hotspotsOf least cs }

def measure (ceiling : Ceiling) (least : α) (t : Tree) : Record α :=
  recordOf least (charges ceiling t.root)

end ComplexityMeter.Metrics
