/-!
# Forms of syntax

Kinds of nodes that are scored by the same rule share a form. A kind of no form of its own is
scored by the base score alone, and nothing below it is looked at.
-/

namespace ComplexityMeter.Score

/-- The kinds of loops. -/
inductive Loop where
  | counting
  | iterating
  | leading
  | trailing
  deriving DecidableEq, Repr

inductive Form where
  | binary
  | unary
  | ternary
  | call
  | member
  | subscript
  | object
  | array
  | declaration
  | function
  | classBody
  | classField
  | exported
  | conditional
  | loop (loop : Loop)
  | switch
  | guarded
  | block
  | wrapper
  | transparent
  | plain
  deriving DecidableEq, Repr

namespace Form

def kinds : Form → List String
  | .binary =>
    ["binary_expression", "assignment_expression", "augmented_assignment_expression"]
  | .unary => ["unary_expression", "update_expression"]
  | .ternary => ["ternary_expression"]
  | .call => ["call_expression", "new_expression"]
  | .member => ["member_expression"]
  | .subscript => ["subscript_expression"]
  | .object => ["object"]
  | .array => ["array"]
  | .declaration => ["lexical_declaration", "variable_declaration"]
  | .function =>
    ["function_declaration", "generator_function_declaration", "method_definition",
      "function_expression", "function", "generator_function", "arrow_function"]
  | .classBody => ["class_declaration", "abstract_class_declaration", "class"]
  | .classField => ["public_field_definition", "field_definition"]
  | .exported => ["export_statement"]
  | .conditional => ["if_statement"]
  | .loop .counting => ["for_statement"]
  | .loop .iterating => ["for_in_statement"]
  | .loop .leading => ["while_statement"]
  | .loop .trailing => ["do_statement"]
  | .switch => ["switch_statement"]
  | .guarded => ["try_statement"]
  | .block => ["statement_block"]
  | .wrapper =>
    ["throw_statement", "expression_statement", "return_statement", "await_expression",
      "yield_expression", "spread_element"]
  | .transparent =>
    ["parenthesized_expression", "as_expression", "non_null_expression", "satisfies_expression"]
  | .plain => []

/-- The forms that have kinds. -/
def all : List Form :=
  [.binary, .unary, .ternary, .call, .member, .subscript, .object, .array, .declaration,
    .function, .classBody, .classField, .exported, .conditional, .loop .counting,
    .loop .iterating, .loop .leading, .loop .trailing, .switch, .guarded, .block, .wrapper,
    .transparent]

def ofKind (kind : String) : Form :=
  (all.find? fun form => form.kinds.contains kind).getD .plain

theorem mem_kinds_of_ofKind {kind : String} {form : Form} (h : ofKind kind = form)
    (some : form ≠ .plain) : kind ∈ form.kinds := by
  rw [ofKind] at h
  cases found : all.find? fun form => form.kinds.contains kind with
  | none =>
    rw [found] at h
    exact absurd h.symm some
  | some found' =>
    rw [found] at h
    obtain rfl : found' = form := h
    simpa using List.find?_some found

end Form

end ComplexityMeter.Score
