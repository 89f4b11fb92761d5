import ComplexityMeter.Proofs.Score.Shape

/-!
# Result trees as lists

The nodes of a result tree are listed by a loop over the trees that are pending, each with the depth
of its root. A tour lists them by recursion: first the root, then the tours of its parts. Both give
one list, since pending trees contribute their tours one after the other; so the statistics that are
read off the list are those that recursion on the tree defines.
-/

namespace ComplexityMeter.Score

namespace Result

variable {α : Type}

mutual

/-- All nodes with their depths, the root first and then the tours of its parts from the first to
the last; the root has the given depth. -/
def tour (depth : Nat) : Result α → List (Result α × Nat)
  | ⟨kind, score, lines, facts, parts⟩ =>
    (⟨kind, score, lines, facts, parts⟩, depth) :: tourAll (depth + 1) parts

def tourAll (depth : Nat) : List (Result α) → List (Result α × Nat)
  | [] => []
  | r :: rest => tour depth r ++ tourAll depth rest

end

theorem tour_eq (depth : Nat) (r : Result α) :
    r.tour depth = (r, depth) :: tourAll (depth + 1) r.parts := by
  obtain ⟨_, _, _, _, _⟩ := r
  simp only [tour]

theorem tourAll_eq (depth : Nat) (rs : List (Result α)) :
    tourAll depth rs = rs.flatMap (tour depth) := by
  induction rs with
  | nil => rfl
  | cons r rest ih => rw [tourAll, ih, List.flatMap_cons]

/-- Pending trees are listed by their tours, whatever is pending with them, at whatever depths. -/
theorem preorderPending_eq (pending : List (Result α × Nat)) :
    preorderPending pending = pending.flatMap fun e => e.1.tour e.2 := by
  fun_induction preorderPending pending with
  | case1 => rfl
  | case2 r depth rest ih =>
    have parts : (atDepth (depth + 1) r.parts).flatMap (fun e => e.1.tour e.2)
        = tourAll (depth + 1) r.parts := by
      rw [atDepth, List.flatMap_map, tourAll_eq]
    rw [ih, List.flatMap_append, parts, List.flatMap_cons, tour_eq, List.cons_append]

theorem preorderDepths_eq (r : Result α) : r.preorderDepths = r.tour 1 := by
  rw [preorderDepths, preorderPending_eq, List.flatMap_singleton]

theorem length_preorderPending (pending : List (Result α × Nat)) :
    (preorderPending pending).length = sizeAll (pending.map Prod.fst) := by
  fun_induction preorderPending pending with
  | case1 => rfl
  | case2 r depth rest ih =>
    rw [List.length_cons, ih, List.map_append, map_fst_atDepth, sizeAll_append, List.map_cons,
      sizeAll, r.size_eq]
    omega

theorem length_preorder (r : Result α) : r.preorder.length = r.size := by
  rw [preorder, List.length_map, preorderDepths, length_preorderPending]
  simp [sizeAll]

end Result

/-! ### Statistics -/

theorem boundedSummary_eq_ok_iff {topCount : Int} {r : Result Number} {summary : Summary Number} :
    boundedSummary (.ok topCount) r = .ok summary
      ↔ (∀ e ∈ flatten r, e.score.double?.isSome = true) ∧ summary = summarize topCount r := by
  have doubles : ((flatten r).map Entry.score).all (fun x => x.double?.isSome) = true
      ↔ ∀ e ∈ flatten r, e.score.double?.isSome = true := by
    simp
  rw [← doubles, boundedSummary, Failure.checkDoubles]
  split
  · rename_i all
    simp only [all, true_and]
    exact ⟨fun h => (Except.ok.inj h).symm, fun h => congrArg Except.ok h.symm⟩
  · rename_i some
    exact iff_of_false (fun h => nomatch h) fun h => some h.1

/-- The list of a result tree is its tour, with one entry for every node. The node count of a
summary is therefore the size of the tree, and its height is the height of the tree, a single node
having height one. Numbers that may outgrow the doubles have a summary, and this one, whenever none
of the scores does. -/
theorem listing_recursive :
    (∀ {α : Type} [Scalar α] (r : Result α) (topCount : Int),
      r.preorderDepths = r.tour 1
      ∧ flatten r
        = (r.tour 1).map (fun e => ⟨e.1.kind, e.1.score, e.1.lines, e.1.facts⟩)
      ∧ (flatten r).length = r.size
      ∧ (summarize topCount r).nodeCount = r.size
      ∧ (summarize topCount r).height = r.height)
    ∧ ∀ (r : Result Number) (topCount : Int) (summary : Summary Number),
      boundedSummary (.ok topCount) r = .ok summary
        ↔ (∀ e ∈ flatten r, e.score.double?.isSome = true) ∧ summary = summarize topCount r := by
  refine ⟨fun r topCount => ?_, fun r topCount summary => boundedSummary_eq_ok_iff⟩
  have count : (flatten r).length = r.size := by rw [flatten, List.length_map, r.length_preorder]
  refine ⟨r.preorderDepths_eq, ?_, count, count, height_summarize topCount r⟩
  rw [flatten, Result.preorder, List.map_map, r.preorderDepths_eq]
  rfl

/-- A root with two parts, of which the second scores what the only part of the first does. -/
def forked {α : Type} [Scalar α] : Result α :=
  ⟨"root", 10.0, none, [], [⟨"left", 4.0, none, [], [⟨"low", 6.0, none, [], []⟩]⟩,
    ⟨"right", 6.0, none, [], []⟩]⟩

theorem listing_recursive_forked :
    (flatten (forked (α := Number))).map Entry.kind = ["root", "left", "low", "right"]
    ∧ (∀ e ∈ flatten (forked (α := Number)), e.score.double?.isSome = true)
    ∧ (summarize 2 (forked (α := Number))).nodeCount = 4
    ∧ (summarize 2 (forked (α := Number))).height = 3
    ∧ boundedSummary (.ok 2) forked = .ok (summarize 2 forked) := by
  obtain ⟨-, entries, -, count, height⟩ := listing_recursive.1 (forked (α := Number)) 2
  have doubles : ∀ e ∈ flatten (forked (α := Number)), e.score.double?.isSome = true := by
    rw [entries]
    decide +kernel
  refine ⟨?_, doubles, count, height, (listing_recursive.2 forked 2 _).2 ⟨doubles, rfl⟩⟩
  rw [entries]
  rfl

end ComplexityMeter.Score
