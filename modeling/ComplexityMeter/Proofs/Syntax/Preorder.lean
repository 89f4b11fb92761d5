import ComplexityMeter.Proofs.Syntax.Walk

/-!
# The order of a walk

A walk is a loop over a stack of pending nodes: each turn hands out the last one and puts its
children in its place. Turn by turn the loop gives the walk that recursion defines, and it ends with
it. Where the walked nodes stand is said by positions among all nodes directly below, tokens and
comments included, so that equal nodes in two places are told apart: a position belongs to the walk
exactly when every node on the way to it is visible, and the positions come in lexicographic order.
-/

namespace ComplexityMeter.Syntax.Node

/-! ### Turns of the loop -/

/-- One turn: the last pending node is handed out and gives way to its children, of which the first
one comes last. The loop ends when nothing is pending. -/
def turn? (pending : List Node) : Option (Node × List Node) :=
  pending.getLast?.map fun n => (n, pending.dropLast ++ n.children.reverse)

/-- What a number of turns hands out, fewer if the loop ends before, and what is pending then. -/
def turns : Nat → List Node → List Node × List Node
  | 0, pending => ([], pending)
  | count + 1, pending =>
    match turn? pending with
    | none => ([], pending)
    | some (n, next) => (turns count next).map (n :: ·) id

@[simp] theorem turn?_concat (rest : List Node) (n : Node) :
    turn? (rest ++ [n]) = some (n, rest ++ n.children.reverse) := by
  simp [turn?]

theorem turns_nil (count : Nat) : turns count [] = ([], []) := by
  cases count <;> rfl

theorem turns_concat (count : Nat) (rest : List Node) (n : Node) :
    turns (count + 1) (rest ++ [n])
      = (turns count (rest ++ n.children.reverse)).map (n :: ·) id := by
  rw [turns, turn?_concat]

/-- Whatever is pending, turns hand out the walks of the pending nodes, from the last node to the
first one, and leave pending what gives the rest of these walks. -/
theorem turns_eq (count : Nat) (pending : List Node) :
    (turns count pending).1 = (walkPending pending.reverse).take count
      ∧ walkPending (turns count pending).2.reverse
        = (walkPending pending.reverse).drop count := by
  -- Read from its end, the stack is the list of pending nodes that the walk is defined on.
  induction count generalizing pending with
  | zero => exact ⟨rfl, rfl⟩
  | succ count ih =>
    rcases pending.eq_nil_or_concat with rfl | ⟨rest, n, rfl⟩
    · rw [turns_nil, List.reverse_nil, walkPending]
      exact ⟨rfl, rfl⟩
    · obtain ⟨handed, left⟩ := ih (rest ++ n.children.reverse)
      rw [List.reverse_append, List.reverse_reverse] at handed left
      rw [List.concat_eq_append, turns_concat, List.reverse_concat, walkPending, Prod.map_fst,
        Prod.map_snd, handed, id_eq, left]
      exact ⟨rfl, rfl⟩

theorem walkPending_eq_nil_iff (pending : List Node) : walkPending pending = [] ↔ pending = [] := by
  cases pending <;> simp [walkPending]

theorem turns_singleton (count : Nat) (n : Node) :
    (turns count [n]).1 = n.walk.take count
      ∧ ((turns count [n]).2 = [] ↔ n.walk.length ≤ count) := by
  obtain ⟨handed, left⟩ := turns_eq count [n]
  refine ⟨handed, ?_⟩
  rw [← List.reverse_eq_nil_iff, ← walkPending_eq_nil_iff, left, List.drop_eq_nil_iff]
  rfl

/-! ### Positions -/

/-- The node at a position below a node: the position says at each node on the way which one of all
nodes directly below comes next. -/
def at? (n : Node) : List Nat → Option Node
  | [] => some n
  | i :: position => n.branches[i]?.bind fun c => c.at? position

/-- All nodes on the way to a position are visible, the one at its end included. The way begins
below the given node, of which nothing is asked. -/
def IsOpen (n : Node) (position : List Nat) : Prop :=
  ∀ way, way ≠ [] → way <+: position → ∀ c ∈ n.at? way, c.isVisible = true

theorem isOpen_nil (n : Node) : n.IsOpen [] :=
  fun _ proper isPrefix => absurd (List.prefix_nil.1 isPrefix) proper

theorem isOpen_cons {n c : Node} {i : Nat} (found : n.branches[i]? = some c)
    (position : List Nat) :
    n.IsOpen (i :: position) ↔ c.isVisible = true ∧ c.IsOpen position := by
  have along (way : List Nat) : n.at? (i :: way) = c.at? way := by
    rw [at?, found, Option.bind_some]
  constructor
  · intro isOpen
    refine ⟨isOpen [i] (List.cons_ne_nil i []) ⟨position, rfl⟩ c (along []), ?_⟩
    intro way _ isPrefix m hm
    exact isOpen (i :: way) (List.cons_ne_nil i way)
      ((List.prefix_cons_inj i).2 isPrefix) m ((along way).trans hm)
  · rintro ⟨visible, isOpen⟩ way proper isPrefix m hm
    obtain rfl | ⟨way, rfl, inside⟩ := List.prefix_cons_iff.1 isPrefix
    · exact absurd rfl proper
    · rw [along] at hm
      cases way with
      | nil => exact Option.some.inj hm ▸ visible
      | cons j way => exact isOpen (j :: way) (List.cons_ne_nil j way) inside m hm

mutual

/-- The visible nodes below a node with their positions, after the node itself: each before what is
below it and after what is below the ones before. -/
def tour : Node → List (List Nat × Node)
  | ⟨kind, isNamed, isMissing, hasError, field, text, startRow, endRow, identity, branches⟩ =>
    ([], ⟨kind, isNamed, isMissing, hasError, field, text, startRow, endRow, identity, branches⟩)
      :: tourFrom 0 branches

/-- The tours of those trees that are visible, where the first of all trees has the given place
below their parent. -/
def tourFrom (start : Nat) : List Node → List (List Nat × Node)
  | [] => []
  | c :: rest =>
    if c.isVisible then
      (tour c).map (fun e => (start :: e.1, e.2)) ++ tourFrom (start + 1) rest
    else tourFrom (start + 1) rest

end

theorem tour_eq (n : Node) : n.tour = ([], n) :: tourFrom 0 n.branches := by
  obtain ⟨_, _, _, _, _, _, _, _, _, _⟩ := n
  rw [tour]

theorem map_snd_tourFrom {ns : List Node} (h : ∀ c ∈ ns, c.tour.map Prod.snd = c.walk)
    (start : Nat) :
    (tourFrom start ns).map Prod.snd = (ns.filter isVisible).flatMap walk := by
  induction ns generalizing start with
  | nil => rfl
  | cons c rest ih =>
    obtain ⟨first, others⟩ := List.forall_mem_cons.1 h
    rw [tourFrom]
    by_cases visible : c.isVisible = true
    · rw [if_pos visible, List.map_append, List.map_map, List.filter_cons_of_pos visible,
        List.flatMap_cons, ih others, ← first]
      rfl
    · rw [if_neg visible, List.filter_cons_of_neg visible, ih others]

/-- The nodes of a tour are those of the walk, in the same order. -/
theorem map_snd_tour (n : Node) : n.tour.map Prod.snd = n.walk := by
  induction n using branches_induction with
  | step n ih =>
    rw [tour_eq, walk_eq, List.map_cons, map_snd_tourFrom ih]
    rfl

theorem mem_tourFrom {start : Nat} {ns : List Node} {e : List Nat × Node} :
    e ∈ tourFrom start ns ↔
      ∃ i c, ns[i]? = some c ∧ c.isVisible = true
        ∧ ∃ below ∈ c.tour, e = ((start + i) :: below.1, below.2) := by
  induction ns generalizing start with
  | nil => simp [tourFrom]
  | cons c rest ih =>
    have later : e ∈ tourFrom (start + 1) rest ↔
        ∃ i d, rest[i]? = some d ∧ d.isVisible = true
          ∧ ∃ below ∈ d.tour, e = ((start + (i + 1)) :: below.1, below.2) := by
      simp only [ih, Nat.add_assoc, Nat.add_comm 1]
    rw [tourFrom, ← Nat.or_exists_add_one]
    by_cases visible : c.isVisible = true
    · rw [if_pos visible, List.mem_append, later]
      simp [visible, eq_comm (a := e)]
    · rw [if_neg visible, later]
      simp [visible]

theorem nil_mem_tour {n m : Node} : ([], m) ∈ n.tour ↔ m = n := by
  rw [tour_eq, List.mem_cons, mem_tourFrom]
  simp

theorem cons_mem_tour {n m : Node} {i : Nat} {position : List Nat} :
    (i :: position, m) ∈ n.tour ↔
      ∃ c, n.branches[i]? = some c ∧ c.isVisible = true ∧ (position, m) ∈ c.tour := by
  rw [tour_eq, List.mem_cons, mem_tourFrom]
  constructor
  · rintro (same | ⟨j, c, found, visible, below, hbelow, same⟩)
    · cases same
    · obtain ⟨heads, rfl⟩ := Prod.mk.inj same
      obtain ⟨rfl, rfl⟩ := List.cons.inj heads
      rw [Nat.zero_add]
      exact ⟨c, found, visible, hbelow⟩
  · rintro ⟨c, found, visible, hm⟩
    exact .inr ⟨i, c, found, visible, (position, m), hm, by rw [Nat.zero_add]⟩

/-- A tour goes to the positions that are open, and to no others. -/
theorem mem_tour {n m : Node} {position : List Nat} :
    (position, m) ∈ n.tour ↔ n.at? position = some m ∧ n.IsOpen position := by
  induction position generalizing n with
  | nil =>
    rw [nil_mem_tour, at?, Option.some.injEq, eq_comm]
    exact (and_iff_left n.isOpen_nil).symm
  | cons i position ih =>
    rw [cons_mem_tour, at?, Option.bind_eq_some_iff]
    constructor
    · rintro ⟨c, found, visible, hm⟩
      obtain ⟨reached, isOpen⟩ := ih.1 hm
      exact ⟨⟨c, found, reached⟩, (isOpen_cons found position).2 ⟨visible, isOpen⟩⟩
    · rintro ⟨⟨c, found, reached⟩, isOpen⟩
      obtain ⟨visible, isOpen⟩ := (isOpen_cons found position).1 isOpen
      exact ⟨c, found, visible, ih.2 ⟨reached, isOpen⟩⟩

theorem pairwise_tourFrom {ns : List Node}
    (h : ∀ c ∈ ns, c.tour.Pairwise fun a b => a.1 < b.1) (start : Nat) :
    (tourFrom start ns).Pairwise fun a b => a.1 < b.1 := by
  induction ns generalizing start with
  | nil => exact .nil
  | cons c rest ih =>
    obtain ⟨first, others⟩ := List.forall_mem_cons.1 h
    rw [tourFrom]
    by_cases visible : c.isVisible = true
    · rw [if_pos visible, List.pairwise_append, List.pairwise_map]
      refine ⟨first.imp fun before => List.cons_lt_cons_iff.2 (.inr ⟨rfl, before⟩),
        ih others (start + 1), ?_⟩
      intro a ha b hb
      obtain ⟨below, -, rfl⟩ := List.mem_map.1 ha
      obtain ⟨i, d, -, -, other, -, rfl⟩ := mem_tourFrom.1 hb
      exact List.cons_lt_cons_iff.2 (.inl (by omega))
    · rw [if_neg visible]
      exact ih others (start + 1)

/-- The positions of a tour come in lexicographic order. -/
theorem pairwise_tour (n : Node) : n.tour.Pairwise fun a b => a.1 < b.1 := by
  induction n using branches_induction with
  | step n ih =>
    rw [tour_eq, List.pairwise_cons]
    refine ⟨fun e he => ?_, pairwise_tourFrom ih 0⟩
    obtain ⟨i, c, -, -, below, -, rfl⟩ := mem_tourFrom.1 he
    exact List.nil_lt_cons _ _

/-! ### The walk as a whole -/

/-- The loop hands out the walk node by node and ends with it. The walk is the node and then the
walks of its children; it takes up the open positions in lexicographic order, each of them once and
no other one. A position precedes those that lead on from it and those that turn to a later node, so
a node comes after its parent and before its later siblings. Nothing is walked below a token or a
comment on the way. Nodes that are told apart by their identities are not walked twice. -/
theorem walk_preorder (n : Node) :
    (∀ count, (turns count [n]).1 = n.walk.take count
      ∧ ((turns count [n]).2 = [] ↔ n.walk.length ≤ count))
    ∧ n.walk = n :: n.children.flatMap walk
    ∧ n.walk = n.tour.map Prod.snd
    ∧ n.tour.Pairwise (fun a b => a.1 < b.1)
    ∧ (∀ position m, (position, m) ∈ n.tour ↔ n.at? position = some m ∧ n.IsOpen position)
    ∧ ((n.nodes.map identity).Nodup → (n.walk.map identity).Nodup) :=
  ⟨fun count => turns_singleton count n, n.walk_eq, n.map_snd_tour.symm, n.pairwise_tour,
    fun _ _ => mem_tour, fun distinct => distinct.sublist (n.walk_sublist_nodes.map identity)⟩

/-- A file with identifiers in three hidden places, below a comment, below a token of the file and
below a token of an expression, and in two open ones. -/
def veiledFile : Node :=
  let node (kind : String) (isNamed : Bool) (identity : Nat) (branches : List Node) : Node :=
    ⟨kind, isNamed, false, false, none, "", 0, 0, identity, branches⟩
  node "program" true 0
    [node "comment" true 1 [node "identifier" true 2 []],
      node "parenthesized_expression" true 3
        [node "(" false 4 [node "identifier" true 5 []], node "identifier" true 6 []],
      node ";" false 7 [node "identifier" true 8 []],
      node "identifier" true 9 []]

theorem walk_preorder_veiled :
    veiledFile.walk.map identity = [0, 3, 6, 9]
    ∧ veiledFile.tour.map Prod.fst = [[], [1], [1, 1], [3]]
    ∧ (turns 3 [veiledFile]).1.map identity = [0, 3, 6]
    ∧ (turns 3 [veiledFile]).2 ≠ [] ∧ (turns 4 [veiledFile]).2 = []
    ∧ veiledFile.at? [1, 0, 0] ≠ none ∧ ¬ veiledFile.IsOpen [1, 0, 0]
    ∧ (veiledFile.nodes.map identity).Nodup ∧ (veiledFile.walk.map identity).Nodup := by
  obtain ⟨loop, -, walked, -, shown, distinct⟩ := walk_preorder veiledFile
  have identities : veiledFile.walk.map identity = [0, 3, 6, 9] := by
    rw [walked]
    rfl
  have length : veiledFile.walk.length = 4 := by
    rw [← List.length_map (f := identity), identities]
    rfl
  have handed : (turns 3 [veiledFile]).1.map identity = [0, 3, 6] := by
    rw [(loop 3).1, List.map_take, identities]
    rfl
  have hidden : ¬ veiledFile.IsOpen [1, 0, 0] := by
    intro isOpen
    have held : ([1, 0, 0] : List Nat) ∈ veiledFile.tour.map Prod.fst :=
      List.mem_map.2 ⟨_, (shown [1, 0, 0] _).2 ⟨rfl, isOpen⟩, rfl⟩
    revert held
    decide +kernel
  have distinctAll : (veiledFile.nodes.map identity).Nodup := by decide +kernel
  refine ⟨identities, rfl, handed, ?_, (loop 4).2.2 length.le, ?_, hidden, distinctAll,
    distinct distinctAll⟩
  · rw [ne_eq, (loop 3).2, length]
    decide
  · nofun

end ComplexityMeter.Syntax.Node
