import ComplexityMeter.Score.Visit
import ComplexityMeter.Syntax.Tree

/-!
# Scores of files

A file scores the base score plus its top-level statements, each weighted by what it declares.
All statements of a file are scored with one set of scored nodes.
-/

namespace ComplexityMeter.Score

open Syntax (Node Tree)

variable {α : Type} [Scalar α]

/-- The declaration that decides the weight of a statement; none for an export without one. -/
def weighed? (statement : Node) : Option Node :=
  if statement.kind = "export_statement" then statement.child? "declaration" else some statement

def parameterNodes (n : Node) : List Node :=
  ((n.child? "parameters").map Node.children).getD []

/-- Classes weigh more with every member and with a base class, interfaces with every member;
function declarations weigh less than other statements, and more with every parameter. -/
def declarationWeight (n : Node) : α :=
  if Form.ofKind n.kind = .classBody then
    let weight : α := 1.0 + 0.1 * ((members n).length : α)
    if hasHeritage n then weight + 0.5 else weight
  else if n.kind = "interface_declaration" then 1.0 + 0.05 * ((members n).length : α)
  else if n.kind = "function_declaration" ∨ n.kind = "generator_function_declaration" then
    0.8 + 0.05 * ((parameterNodes n).length : α)
  else 1.0

def statementWeight (statement : Node) : α :=
  ((weighed? statement).map declarationWeight).getD 1.0

def weightedTotal (weighted : List (α × α)) : α :=
  weighted.foldl (fun score pair => score + pair.1 * pair.2) 1.0

/-- The context of a file. Its root counts as scored before its statements. -/
def fileContext (ceiling : Ceiling) (t : Tree) : Context :=
  { Context.start t.filename ceiling with visited := [t.root.identity] }

def statementResults (ceiling : Ceiling) (t : Tree) : List (Result α) :=
  ((t.root.children.mapM visit).run (fileContext ceiling t)).1

def scoreFile (ceiling : Ceiling) (t : Tree) : Result α :=
  let statements := t.root.children
  let results : List (Result α) := statementResults ceiling t
  { kind := t.root.kind
    score := weightedTotal ((results.map Result.score).zip (statements.map statementWeight))
    lines := some ⟨1, t.root.endLine⟩
    facts := [("filename", .text t.filename), countFact "statement_count" statements.length,
      truthFact "weighted_score" true]
    parts := results }

end ComplexityMeter.Score
