import ComplexityMeter.Score.Form
import ComplexityMeter.Score.Recipe
import ComplexityMeter.Syntax.Node

/-!
# Scoring rules

The rule of every form: which parts of a node are scored, with which weights, and which facts are
noted. The weights are tuned for relative order only. A rule reads a node through the view of
named, non-comment children, and looks at single tokens only where an operator or a keyword
decides.
-/

namespace ComplexityMeter.Score

open Syntax (Node)

variable {α : Type} [Scalar α]

/-- The nodes under some grammar fields, those that are there. -/
def under (n : Node) (fields : List String) : List Node :=
  fields.filterMap n.child?

def countFact (name : String) (count : Nat) : String × Value α :=
  (name, .number (count : α))

def truthFact (name : String) (holds : Bool) : String × Value α :=
  (name, .truth holds)

def tokenFact (name : String) (token : Option String) : String × Value α :=
  (name, (token.map Value.text).getD .null)

def partsOnly (parts : List Node) : Recipe α Node :=
  ⟨[.sum parts], []⟩

/-! ### Operators and arguments -/

def logicalOperators : List String := ["&&", "||", "??"]

def comparisonOperators : List String := ["==", "===", "!=", "!==", "<", "<=", ">", ">="]

/-- Joining two conditions weighs most, comparing less, any other operator least. -/
def operatorWeight (operator : Option String) : α :=
  match operator with
  | none => 0.1
  | some op =>
    if logicalOperators.contains op then 0.5
    else if comparisonOperators.contains op then 0.3
    else 0.1

/-- The operator of a node with operands; a plain assignment has no operator token. -/
def operator (n : Node) : Option String :=
  if n.kind = "assignment_expression" then some "=" else n.token? "operator"

/-- The arguments of a call. A template text after a function is its only argument. -/
def arguments (n : Node) : List Node :=
  match n.child? "arguments" with
  | none => []
  | some list => if list.kind = "arguments" then list.children else [list]

/-! ### Expressions -/

def binaryRecipe (n : Node) : Recipe α Node :=
  ⟨[.sum (under n ["left", "right"]), .plus (operatorWeight (operator n))],
    [tokenFact "operator" (operator n)]⟩

/-- An update stands before its operand unless another token comes first. -/
def standsBefore (n : Node) : Bool :=
  n.kind ≠ "update_expression" || n.firstToken? = some "++" || n.firstToken? = some "--"

def unaryWeight (n : Node) : α :=
  if n.token? "operator" = some "!" then 0.3
  else if standsBefore n then 0.1
  else 0.2

def unaryRecipe (n : Node) : Recipe α Node :=
  ⟨[.sum (under n ["argument"]), .plus (unaryWeight n)],
    [tokenFact "operator" (n.token? "operator"), truthFact "prefix" (standsBefore n)]⟩

def callee? (n : Node) : Option Node :=
  (n.child? "function").or (n.child? "constructor")

/-- From the sixth on, every argument makes all of them weigh more. -/
def argumentFactor (count : Nat) : α :=
  Scalar.atLeast 1.0 ((count : α) * 0.2)

def callRecipe (n : Node) : Recipe α Node :=
  let args := arguments n
  ⟨[.sum (callee? n).toList, .scaled (argumentFactor args.length) args],
    [countFact "argument_count" args.length]⟩

/-- The values of an object: of a pair its value, any other member as it is. -/
def memberValues (n : Node) : List Node :=
  n.children.flatMap fun member =>
    if member.kind = "pair" then under member ["value"] else [member]

def objectRecipe (n : Node) : Recipe α Node :=
  ⟨[.sum (memberValues n)], [countFact "property_count" (memberValues n).length]⟩

def arrayRecipe (n : Node) : Recipe α Node :=
  ⟨[.sum n.children], [countFact "element_count" n.children.length]⟩

/-! ### Declarations -/

def declarators (n : Node) : List Node :=
  n.children.filter fun c => c.kind = "variable_declarator"

def binding (n : Node) : String :=
  if n.kind = "variable_declaration" then "var"
  else ((n.token? "kind").or n.firstToken?).getD "const"

def isMutable (n : Node) : Bool :=
  binding n = "let" || binding n = "var"

/-- Every declarator that can be assigned again makes the whole declaration weigh more. -/
def mutabilityFactor (count : Nat) : α :=
  ((1 : Nat) : α) + 0.5 * (count : α)

def declarationRecipe (n : Node) : Recipe α Node :=
  let declared := declarators n
  ⟨.sum (declared.filterMap fun d => d.child? "value")
      :: (if isMutable n then [.times (mutabilityFactor declared.length)] else []),
    [("binding", .text (binding n)), countFact "declarator_count" declared.length,
      truthFact "mutable" (isMutable n)]⟩

def members (n : Node) : List Node :=
  ((n.child? "body").map Node.children).getD []

def hasHeritage (n : Node) : Bool :=
  (n.childOfKind? ["class_heritage"]).isSome

def classRecipe (n : Node) : Recipe α Node :=
  ⟨[.sum (members n)],
    [countFact "member_count" (members n).length, truthFact "has_heritage" (hasHeritage n)]⟩

def exported? (n : Node) : Option Node :=
  (n.child? "declaration").or (n.child? "value")

/-! ### Statements -/

/-- The branch for the other case: what an else clause holds, or the node itself. -/
def alternative? (n : Node) : Option Node :=
  (n.child? "alternative").bind fun other =>
    if other.kind = "else_clause" then other.children.head? else some other

def conditionalRecipe (n : Node) : Recipe α Node :=
  ⟨[.sum (under n ["condition", "consequence"] ++ (alternative? n).toList), .plus 0.5],
    [truthFact "has_else" (alternative? n).isSome]⟩

/-- What is scored of a part of a loop header: nothing of an empty statement, the expression of an
expression statement. -/
def clause? (n : Node) : Option Node :=
  if n.kind = "empty_statement" then none
  else if n.kind = "expression_statement" then n.children.head?
  else some n

def loopParts (n : Node) : Loop → List Node
  | .counting =>
    (under n ["initializer", "condition"]).filterMap clause? ++ under n ["increment", "body"]
  | .iterating => under n ["right", "body"]
  | .leading | .trailing => under n ["condition", "body"]

def loopWeight : Loop → α
  | .counting => 1.0
  | .iterating => 0.8
  | .leading => 0.8
  | .trailing => 1.0

def loopName (n : Node) : Loop → String
  | .counting => "for"
  | .iterating => if n.hasToken "of" then "for-of" else "for-in"
  | .leading => "while"
  | .trailing => "do-while"

def loopRecipe (n : Node) (loop : Loop) : Recipe α Node :=
  ⟨[.sum (loopParts n loop), .plus (loopWeight loop)], [("loop_kind", .text (loopName n loop))]⟩

def isCase (n : Node) : Bool :=
  n.kind = "switch_case" || n.kind = "switch_default"

def cases (n : Node) : List Node :=
  (members n).filter isCase

/-- A case: its test, which weighs less than other expressions, then its statements. -/
def caseTerms (clause : Node) : List (Term α Node) :=
  ((clause.child? "value").toList.map fun test => .scaled 0.3 [test])
    ++ [.sum (clause.fields "body")]

def switchRecipe (n : Node) : Recipe α Node :=
  ⟨.sum (under n ["value"]) :: (cases n).flatMap caseTerms ++ [.plus (0.5 * ((cases n).length : α))],
    [countFact "case_count" (cases n).length]⟩

def bindsCaught (n : Node) : Bool :=
  ((n.child? "handler").bind fun handler => handler.child? "parameter").isSome

def handlerTerms (n : Node) : List (Term α Node) :=
  match n.child? "handler" with
  | none => []
  | some handler =>
    .sum (under handler ["body"]) :: .plus 2.0 :: (if bindsCaught n then [.plus 0.5] else [])

def finalizerTerms (n : Node) : List (Term α Node) :=
  match n.child? "finalizer" with
  | none => []
  | some finalizer => [.sum (under finalizer ["body"]), .plus 1.5]

def guardedRecipe (n : Node) : Recipe α Node :=
  ⟨.sum (under n ["body"]) :: handlerTerms n ++ finalizerTerms n,
    [truthFact "has_catch" (n.child? "handler").isSome,
      truthFact "has_finally" (n.child? "finalizer").isSome,
      truthFact "catch_binds" (bindsCaught n)]⟩

def blockRecipe (n : Node) : Recipe α Node :=
  ⟨[.sum n.children, .plus (0.1 * (n.children.length : α))],
    [countFact "statement_count" n.children.length]⟩

/-! ### All forms -/

def planOfForm (n : Node) : Form → Plan α Node
  | .binary => .recipe (binaryRecipe n)
  | .unary => .recipe (unaryRecipe n)
  | .ternary => .recipe (partsOnly (under n ["condition", "consequence", "alternative"]))
  | .call => .recipe (callRecipe n)
  | .member => .recipe (partsOnly (under n ["object"]))
  | .subscript => .recipe (partsOnly (under n ["object", "index"]))
  | .object => .recipe (objectRecipe n)
  | .array => .recipe (arrayRecipe n)
  | .declaration => .recipe (declarationRecipe n)
  | .function => .recipe (partsOnly (under n ["body"]))
  | .classBody => .recipe (classRecipe n)
  | .classField => .recipe (partsOnly (under n ["value"]))
  | .exported => .recipe (partsOnly (exported? n).toList)
  | .conditional => .recipe (conditionalRecipe n)
  | .loop loop => .recipe (loopRecipe n loop)
  | .switch => .recipe (switchRecipe n)
  | .guarded => .recipe (guardedRecipe n)
  | .block => .recipe (blockRecipe n)
  | .wrapper => .recipe (partsOnly n.children)
  | .transparent =>
    match n.children with
    | [] => .recipe ⟨[], []⟩
    | first :: _ => .inner first
  | .plain => .recipe ⟨[], []⟩

def plan (n : Node) : Plan α Node :=
  planOfForm n (Form.ofKind n.kind)

/-- What a node costs beyond the base score when it is met again, by its kind alone. -/
def repeatedWeights : Entries α :=
  [("ternary_expression", 1.0), ("if_statement", 0.5), ("for_statement", 0.8),
    ("for_in_statement", 0.8), ("while_statement", 0.8), ("do_statement", 1.0),
    ("switch_statement", 1.5), ("try_statement", 3.0), ("throw_statement", 1.0)]

/-- The score of a node that has been scored before. Its parts are not scored again. -/
def estimate (n : Node) : α :=
  match Form.ofKind n.kind with
  | .binary => 1.0 + operatorWeight (operator n)
  | .call => 1.0 + 0.2 * ((arguments n).length : α)
  | _ => 1.0 + (repeatedWeights.get? n.kind).getD 0.0

end ComplexityMeter.Score
