import ComplexityMeter.Failure
import ComplexityMeter.Syntax.Language
import ComplexityMeter.Syntax.Node

/-!
# Parsed sources

A parser turns a text into a concrete tree, whatever the text holds. A tree that marks an error is
refused, and the refusal names the first place that explains it.
-/

namespace ComplexityMeter.Syntax

/-- A parser gives every text of a language a concrete tree. -/
abbrev Parser := Language → String → Node

/-- A source without errors. -/
structure Tree where
  root : Node
  filename : String
  language : Language

/-- A place that explains why a tree has an error. -/
inductive Fault where
  /-- Text that fits nowhere. -/
  | unexpected (line : Int)
  /-- A token that is not there. -/
  | missing (kind : String) (line : Int)
  deriving DecidableEq, Repr

namespace Fault

def describe : Fault → String
  | .unexpected line => "syntax error at line " ++ toString line
  | .missing kind line => "missing '" ++ kind ++ "' at line " ++ toString line

/-- The fault that a node itself shows. -/
def ofNode? (n : Node) : Option Fault :=
  if n.kind = "ERROR" then some (.unexpected n.startLine)
  else if n.isMissing then some (.missing n.kind n.startLine)
  else none

/-- The first fault among pending nodes and what is below them. Nothing is looked for below a node
that has no error. -/
def firstPending : List Node → Option Fault
  | [] => none
  | n :: rest =>
    match ofNode? n with
    | some fault => some fault
    | none => if n.hasError then firstPending (n.branches ++ rest) else firstPending rest
termination_by pending => Node.sizeAll pending
decreasing_by
  · have := n.size_eq
    simp only [Node.sizeAll, Node.sizeAll_append]
    omega
  · have := n.size_pos
    simp only [Node.sizeAll]
    omega

def find? (root : Node) : Option Fault :=
  firstPending [root]

def reason (root : Node) : String :=
  ((find? root).map describe).getD "syntax error"

end Fault

namespace Tree

def parse (parser : Parser) (language : Language) (filename code : String) :
    Except Failure Tree :=
  let root := parser language code
  if root.hasError then .error (.parsing filename language.name (Fault.reason root))
  else .ok ⟨root, filename, language⟩

def parseNamed (parser : Parser) (language filename code : String) : Except Failure Tree :=
  match Language.ofName? language with
  | some known => parse parser known filename code
  | none => .error (.unsupportedLanguage language Language.names)

end Tree

end ComplexityMeter.Syntax
