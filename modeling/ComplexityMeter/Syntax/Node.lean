/-!
# Concrete syntax trees and the view that scoring reads

A parser delivers concrete trees: every token is a node, some nodes are named, and a node may hold
a child under a grammar field. Scoring reads a tree only through the view defined here. Its
children are the named nodes that are no comments; a field, a token or the first token of a node
can be asked for separately.
-/

namespace ComplexityMeter.Syntax

/-- A node of a concrete syntax tree. Rows count from zero. Two nodes are the same node when they
have the same identity. -/
structure Node where
  kind : String
  isNamed : Bool
  isMissing : Bool
  hasError : Bool
  /-- The grammar field under which the parent holds the node. -/
  field : Option String
  text : String
  startRow : Nat
  endRow : Nat
  identity : Nat
  /-- All nodes directly below, tokens and comments included. -/
  branches : List Node
  deriving Inhabited

namespace Node

def isComment (n : Node) : Bool :=
  n.kind = "comment" || n.kind = "html_comment"

/-- Named and no comment: a node that the view shows. -/
def isVisible (n : Node) : Bool :=
  n.isNamed && !n.isComment

/-- The visible nodes directly below, in source order. -/
def children (n : Node) : List Node :=
  n.branches.filter isVisible

def fieldBranch? (n : Node) (name : String) : Option Node :=
  n.branches.find? fun c => c.field = some name

/-- The node under a grammar field. A comment in first place hides the field. -/
def child? (n : Node) (name : String) : Option Node :=
  (n.fieldBranch? name).filter fun c => !c.isComment

/-- The visible nodes under a repeated grammar field. -/
def fields (n : Node) (name : String) : List Node :=
  n.branches.filter fun c => c.field = some name && c.isVisible

/-- The kind of the first node under a grammar field, which may be a bare token. -/
def token? (n : Node) (name : String) : Option String :=
  (n.fieldBranch? name).map kind

def firstToken? (n : Node) : Option String :=
  n.branches.head?.map kind

def hasToken (n : Node) (kind : String) : Bool :=
  n.branches.any fun c => c.kind = kind

def childOfKind? (n : Node) (kinds : List String) : Option Node :=
  n.children.find? fun c => kinds.contains c.kind

/-- The first line, counted from one. -/
def startLine (n : Node) : Int :=
  n.startRow + 1

/-- The last line, counted from one. -/
def endLine (n : Node) : Int :=
  n.endRow + 1

def describe (n : Node) : String :=
  "SyntaxNode(" ++ n.kind ++ ", lines " ++ toString n.startLine ++ "-" ++ toString n.endLine ++ ")"

mutual

/-- The number of nodes of a tree, tokens and comments included. -/
def size : Node → Nat
  | ⟨_, _, _, _, _, _, _, _, _, branches⟩ => sizeAll branches + 1

def sizeAll : List Node → Nat
  | [] => 0
  | c :: rest => c.size + sizeAll rest

end

theorem size_eq (n : Node) : n.size = sizeAll n.branches + 1 := by
  obtain ⟨_, _, _, _, _, _, _, _, _, _⟩ := n
  simp only [size]

theorem size_pos (n : Node) : 0 < n.size := by
  rw [size_eq]
  exact Nat.succ_pos _

@[simp] theorem sizeAll_append (a b : List Node) : sizeAll (a ++ b) = sizeAll a + sizeAll b := by
  induction a with
  | nil => simp [sizeAll]
  | cons c rest ih => simp [sizeAll, ih, Nat.add_assoc]

theorem sizeAll_filter_le (p : Node → Bool) (ns : List Node) :
    sizeAll (ns.filter p) ≤ sizeAll ns := by
  induction ns with
  | nil => simp
  | cons c rest ih =>
    by_cases h : p c
    · simp only [List.filter_cons_of_pos h, sizeAll]
      omega
    · simp only [List.filter_cons_of_neg h, sizeAll]
      omega

theorem sizeAll_children_lt (n : Node) : sizeAll n.children < n.size := by
  have := sizeAll_filter_le isVisible n.branches
  rw [size_eq]
  simp only [children]
  omega

/-- The visible nodes below some pending nodes, each before what is below it. -/
def walkPending : List Node → List Node
  | [] => []
  | n :: rest => n :: walkPending (n.children ++ rest)
termination_by pending => sizeAll pending
decreasing_by
  have := sizeAll_children_lt n
  simp only [sizeAll, sizeAll_append]
  omega

/-- The node and all visible nodes below it: each before its children, the children in source
order. -/
def walk (n : Node) : List Node :=
  walkPending [n]

end Node

end ComplexityMeter.Syntax
