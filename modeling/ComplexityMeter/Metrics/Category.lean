import ComplexityMeter.Scalar
import ComplexityMeter.Value

/-!
# Categories of complexity

The six categories under which the metrics of a snippet are kept, and the weights with which they
enter a single number.
-/

namespace ComplexityMeter.Metrics

inductive Category where
  | mutability
  | scope
  | assignment
  | function
  | conditional
  | exception
  deriving DecidableEq, Repr

namespace Category

def all : List Category :=
  [.mutability, .scope, .assignment, .function, .conditional, .exception]

theorem mem_all (c : Category) : c ∈ all := by
  cases c <;> decide

def name : Category → String
  | .mutability => "variable_mutability_score"
  | .scope => "scope_complexity_score"
  | .assignment => "assignment_score"
  | .function => "function_complexity_score"
  | .conditional => "conditional_complexity_score"
  | .exception => "exception_handling_score"

/-- The name of the category in a record of weights. -/
def weightName : Category → String
  | .mutability => "variable_mutability"
  | .scope => "scope_complexity"
  | .assignment => "assignment"
  | .function => "function_complexity"
  | .conditional => "conditional_complexity"
  | .exception => "exception_handling"

def label : Category → String
  | .mutability => "Variable mutability"
  | .scope => "Scope complexity"
  | .assignment => "Assignments"
  | .function => "Function complexity"
  | .conditional => "Conditional complexity"
  | .exception => "Exception handling"

def ofWeightName? (name : String) : Option Category :=
  all.find? fun c => c.weightName = name

end Category

abbrev Weights (α : Type) := Category → α

def Weights.default {α : Type} [Scalar α] : Weights α
  | .mutability => 1.5
  | .scope => 1.0
  | .assignment => 1.2
  | .function => 1.0
  | .conditional => 2.0
  | .exception => 1.5

end ComplexityMeter.Metrics
