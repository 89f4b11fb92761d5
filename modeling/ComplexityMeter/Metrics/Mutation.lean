import ComplexityMeter.Syntax.Node

/-!
# Writes to variables

A write is counted under the text of what it writes to: a plain assignment to a name or to a
property of a name, a compound assignment to a name, and an increment or decrement of a name.
-/

namespace ComplexityMeter.Metrics

open Syntax (Node)

def compoundOperators : List String := ["+=", "-=", "*=", "/=", "%="]

def isIdentifier (n : Node) : Bool :=
  n.kind = "identifier"

/-- The text under which an assignment to a target is counted. -/
def targetKey? (target : Node) : Option String :=
  if isIdentifier target then some target.text
  else if target.kind = "member_expression" then
    match target.child? "object", target.child? "property" with
    | some object, some property =>
      if isIdentifier object then some (object.text ++ "." ++ property.text) else none
    | _, _ => none
  else none

def nameKey? (target : Node) : Option String :=
  if isIdentifier target then some target.text else none

/-- The text under which a node counts as a write. -/
def writeKey? (n : Node) : Option String :=
  if n.kind = "assignment_expression" then (n.child? "left").bind targetKey?
  else if n.kind = "augmented_assignment_expression" then
    match n.token? "operator" with
    | some op => if compoundOperators.contains op then (n.child? "left").bind nameKey? else none
    | none => none
  else if n.kind = "update_expression" then (n.child? "argument").bind nameKey?
  else none

/-- The keys of all writes of a tree, one for each write. -/
def writes (root : Node) : List String :=
  root.walk.filterMap writeKey?

/-- How often each key is written, sorted by key. -/
def writeCounts (root : Node) : List (String × Nat) :=
  let keys := writes root
  (keys.eraseDups.mergeSort fun a b => a ≤ b).map fun key => (key, keys.count key)

end ComplexityMeter.Metrics
