import Mathlib.Data.List.Chain
import ComplexityMeter.Syntax.Subtree
import ComplexityMeter.Syntax.Tree

/-!
# Where a parse fails

A tree that marks an error is searched for the first place that explains it. The search follows the
marks down through all nodes, tokens and comments included, and stops at the first node that is an
error or missing itself. Read from the nodes, this is the first such node in the order of the tree
of which every node above it is marked.
-/

namespace ComplexityMeter.Syntax

namespace Node

mutual

/-- All nodes of a tree, tokens and comments included, each before what is below it and with the
nodes above it, the nearest first. Above the root stand the given ones. -/
def ancestry (above : List Node) : Node → List (Node × List Node)
  | ⟨kind, isNamed, isMissing, hasError, field, text, startRow, endRow, identity, branches⟩ =>
    let n : Node :=
      ⟨kind, isNamed, isMissing, hasError, field, text, startRow, endRow, identity, branches⟩
    (n, above) :: ancestryAll (n :: above) branches

def ancestryAll (above : List Node) : List Node → List (Node × List Node)
  | [] => []
  | c :: rest => ancestry above c ++ ancestryAll above rest

end

theorem ancestryAll_eq (above ns : List Node) :
    ancestryAll above ns = ns.flatMap (ancestry above) := by
  induction ns with
  | nil => rfl
  | cons c rest ih => rw [ancestryAll, ih, List.flatMap_cons]

theorem ancestry_eq (above : List Node) (n : Node) :
    n.ancestry above = (n, above) :: n.branches.flatMap (ancestry (n :: above)) := by
  obtain ⟨_, _, _, _, _, _, _, _, _, _⟩ := n
  rw [ancestry, ancestryAll_eq]

theorem map_fst_ancestry (above : List Node) (n : Node) :
    (n.ancestry above).map Prod.fst = n.nodes := by
  induction n using branches_induction generalizing above with
  | step n ih =>
    rw [ancestry_eq, nodes_eq, nodesAll_eq_flatMap, List.map_cons, List.map_flatMap]
    exact congrArg (n :: ·) (List.flatMap_congr fun c hc => ih c hc (n :: above))

/-- The nodes above a node: each stands directly below the next one, and the last one is the
root. -/
structure Ascends (root m : Node) (above : List Node) : Prop where
  isChain : (m :: above).IsChain fun c p => c ∈ p.branches
  getLast?_eq : (m :: above).getLast? = some root

theorem ascends_of_mem_ancestry {root n : Node} {above : List Node} (up : Ascends root n above)
    {e : Node × List Node} (he : e ∈ n.ancestry above) : Ascends root e.1 e.2 := by
  induction n using branches_induction generalizing above with
  | step n ih =>
    rw [ancestry_eq] at he
    rcases List.mem_cons.1 he with rfl | he
    · exact up
    · obtain ⟨c, hc, he⟩ := List.mem_flatMap.1 he
      refine ih c hc ⟨.cons_cons hc up.isChain, ?_⟩ he
      rw [List.getLast?_cons_cons, up.getLast?_eq]

/-! ### Suspects -/

/-- The nodes of a tree of which every node above is marked, in the order of the tree. -/
def suspects (n : Node) : List Node :=
  ((n.ancestry []).filter fun e => e.2.all hasError).map Prod.fst

theorem ancestry_append (near above : List Node) (n : Node) :
    n.ancestry (near ++ above) = (n.ancestry near).map fun e => (e.1, e.2 ++ above) := by
  induction n using branches_induction generalizing near with
  | step n ih =>
    rw [ancestry_eq, ancestry_eq, List.map_cons, List.map_flatMap]
    exact congrArg _ (List.flatMap_congr fun c hc => ih c hc (n :: near))

/-- Below other nodes a tree has the same suspects, as long as all of these are marked. -/
theorem suspects_below (above : List Node) (n : Node) :
    ((n.ancestry above).filter fun e => e.2.all hasError).map Prod.fst
      = if above.all hasError then n.suspects else [] := by
  rw [← List.nil_append above, ancestry_append, List.filter_map, List.map_map, List.nil_append]
  cases marked : above.all hasError <;>
    simp [suspects, Function.comp_def, List.all_append, marked]

theorem suspects_eq (n : Node) :
    n.suspects = n :: if n.hasError then n.branches.flatMap suspects else [] := by
  have below : ∀ c ∈ n.branches,
      ((c.ancestry [n]).filter fun e => e.2.all hasError).map Prod.fst
        = if n.hasError then c.suspects else [] := by
    intro c _
    rw [suspects_below, List.all_cons, List.all_nil, Bool.and_true]
  rw [suspects, ancestry_eq, List.filter_cons_of_pos (by rfl), List.map_cons, List.filter_flatMap,
    List.map_flatMap, List.flatMap_congr below]
  cases n.hasError <;> simp

end Node

namespace Fault

/-- The search takes up the suspects of what is pending, one after the other. -/
theorem firstPending_eq (pending : List Node) :
    firstPending pending = (pending.flatMap Node.suspects).findSome? ofNode? := by
  -- What is pending is a forest: a marked node gives way to the trees directly below it.
  fun_induction firstPending pending with
  | case1 => rfl
  | case2 n rest fault own =>
    rw [List.flatMap_cons, Node.suspects_eq, List.cons_append, List.findSome?_cons, own]
  | case3 n rest none marked ih =>
    rw [List.flatMap_cons, Node.suspects_eq, List.cons_append, List.findSome?_cons, none, ih,
      if_pos marked, List.flatMap_append]
  | case4 n rest none clear ih =>
    rw [List.flatMap_cons, Node.suspects_eq, List.cons_append, List.findSome?_cons, none, ih,
      if_neg clear, List.nil_append]

/-- The place of a node, given by the nodes above it, explains why a tree has an error: all of these
are marked, and the node itself is an error or missing. -/
structure Explains (e : Node × List Node) : Prop where
  marked : ∀ a ∈ e.2, a.hasError = true
  own : e.1.kind = "ERROR" ∨ e.1.isMissing = true

instance : DecidablePred Explains := fun e =>
  decidable_of_iff ((∀ a ∈ e.2, a.hasError = true) ∧ (e.1.kind = "ERROR" ∨ e.1.isMissing = true))
    ⟨fun h => ⟨h.1, h.2⟩, fun h => ⟨h.marked, h.own⟩⟩

/-- What a refusal says about a node, an error in the first place. -/
def sentence (n : Node) : String :=
  if n.kind = "ERROR" then "syntax error at line " ++ toString (n.startRow + 1)
  else "missing '" ++ n.kind ++ "' at line " ++ toString (n.startRow + 1)

theorem map_describe_ofNode? (n : Node) :
    (ofNode? n).map describe
      = if n.kind = "ERROR" ∨ n.isMissing = true then some (sentence n) else none := by
  by_cases error : n.kind = "ERROR"
  · rw [ofNode?, if_pos error, if_pos (.inl error), sentence, if_pos error]
    rfl
  · by_cases missing : n.isMissing = true
    · rw [ofNode?, if_neg error, if_pos missing, if_pos (.inr missing), sentence, if_neg error]
      rfl
    · rw [ofNode?, if_neg error, if_neg missing, if_neg (not_or.2 ⟨error, missing⟩)]
      rfl

/-- The search finds the first place that explains the error. -/
theorem map_describe_find? (root : Node) :
    (find? root).map describe
      = ((root.ancestry []).find? fun e => decide (Explains e)).map fun e => sentence e.1 := by
  rw [find?, firstPending_eq, List.flatMap_singleton, Node.suspects, List.map_findSome?,
    List.findSome?_map]
  induction root.ancestry [] with
  | nil => rfl
  | cons e rest ih =>
    by_cases marked : e.2.all Node.hasError = true
    · rw [List.filter_cons_of_pos (p := fun e : Node × List Node => e.2.all Node.hasError) marked,
        List.findSome?_cons]
      by_cases own : e.1.kind = "ERROR" ∨ e.1.isMissing = true
      · have explained : Explains e := ⟨List.all_eq_true.1 marked, own⟩
        have fault : (ofNode? e.1).map describe = some (sentence e.1) := by
          rw [map_describe_ofNode?, if_pos own]
        simp only [Function.comp_apply, fault]
        rw [List.find?_cons_of_pos (by simpa using explained)]
        rfl
      · have clear : ¬ Explains e := fun h => own h.own
        have fault : (ofNode? e.1).map describe = none := by
          rw [map_describe_ofNode?, if_neg own]
        simp only [Function.comp_apply, fault]
        rw [ih, List.find?_cons_of_neg (by simpa using clear)]
    · have clear : ¬ Explains e := fun h => marked (List.all_eq_true.2 h.marked)
      rw [List.filter_cons_of_neg (p := fun e : Node × List Node => e.2.all Node.hasError) marked,
        List.find?_cons_of_neg (by simpa using clear), ih]

theorem sentence_ne (n : Node) : sentence n ≠ "syntax error" := by
  intro same
  rw [sentence] at same
  split_ifs at same
  · have lengths := congrArg String.length same
    have begins : "syntax error at line ".length = 21 := by decide
    have plain : "syntax error".length = 12 := by decide
    rw [String.length_append] at lengths
    omega
  · have firsts := congrArg (fun text => text.toList.head?) same
    simp at firsts

end Fault

/-- A source of a known language whose tree is marked as a whole is refused. The refusal speaks of
the first place, in the order of the tree, that explains the error, and is a plain one if and only
if there is no such place. Nothing is assumed about the marks below. -/
theorem parse_failure_located (parser : Parser) {name : String} {language : Language}
    (known : Language.ofName? name = some language) (filename code : String)
    (refused : (parser language code).hasError = true) :
    let places := (parser language code).ancestry []
    ∃ reason, Tree.parseNamed parser name filename code = .error (.parsing filename name reason)
      ∧ (∀ e, places.find? (fun e => decide (Fault.Explains e)) = some e →
          reason = Fault.sentence e.1)
      ∧ (reason = "syntax error" ↔ ∀ e ∈ places, ¬ Fault.Explains e)
      ∧ places.map Prod.fst = (parser language code).nodes
      ∧ ∀ e ∈ places, Node.Ascends (parser language code) e.1 e.2 := by
  intro places
  have named : language.name = name := by
    rw [Language.ofName?] at known
    simpa using List.find?_some known
  have parsed : Tree.parseNamed parser name filename code
      = .error (.parsing filename name (Fault.reason (parser language code))) := by
    rw [Tree.parseNamed, known, ← named]
    exact if_pos refused
  have said : Fault.reason (parser language code)
      = ((places.find? fun e => decide (Fault.Explains e)).map fun e => Fault.sentence e.1).getD
          "syntax error" := by
    rw [Fault.reason, Fault.map_describe_find?]
  refine ⟨Fault.reason (parser language code), parsed, fun e found => ?_, ?_,
    Node.map_fst_ancestry [] _, fun e he => Node.ascends_of_mem_ancestry ⟨.singleton _, rfl⟩ he⟩
  · rw [said, found]
    rfl
  · rw [said]
    cases found : places.find? fun e => decide (Fault.Explains e) with
    | none => simpa using List.find?_eq_none.1 found
    | some e =>
      refine iff_of_false (Fault.sentence_ne e.1) fun none => ?_
      exact none e (List.mem_of_find?_eq_some found) (by simpa using List.find?_some found)

/-- A marked file whose first statement hides an error below a block without a mark. In the second
one an error stands in the place of a token that is not there. -/
def damagedFile : Node :=
  let node (kind : String) (isMissing hasError : Bool) (row : Nat) (branches : List Node) : Node :=
    ⟨kind, true, isMissing, hasError, none, "", row, row, 0, branches⟩
  node "program" false true 0
    [node "statement_block" false false 1 [node "ERROR" false true 1 []],
      node "expression_statement" false true 2
        [node "identifier" false false 2 [], node "ERROR" true false 3 []],
      node ";" true false 4 []]

/-- A file that is marked for an error found nowhere. -/
def suspectFile : Node :=
  { damagedFile with branches := damagedFile.branches.take 1 }

theorem parse_failure_located_damaged :
    Tree.parseNamed (fun _ _ => damagedFile) "tsx" "a.tsx" "x"
        = .error (.parsing "a.tsx" "tsx" "syntax error at line 4")
      ∧ Tree.parseNamed (fun _ _ => suspectFile) "typescript" "a.ts" ""
        = .error (.parsing "a.ts" "typescript" "syntax error") := by
  obtain ⟨reason, parsed, first, -⟩ :=
    parse_failure_located (fun _ _ => damagedFile) (Language.ofName?_name .tsx) "a.tsx" "x" rfl
  obtain ⟨reason', parsed', -, plain, -⟩ :=
    parse_failure_located (fun _ _ => suspectFile) (Language.ofName?_name .typescript) "a.ts" ""
      rfl
  have fourth : reason = "syntax error at line 4" := first _ rfl
  have none : reason' = "syntax error" := plain.2 (by decide +kernel)
  rw [fourth] at parsed
  rw [none] at parsed'
  exact ⟨parsed, parsed'⟩

end ComplexityMeter.Syntax
