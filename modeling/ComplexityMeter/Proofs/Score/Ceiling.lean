import ComplexityMeter.Proofs.Score.Monotone

/-!
# Scores under different depth ceilings

A higher ceiling cuts off less. Where the nodes of a tree have different identities, a score can
only grow with the ceiling. And whatever the identities are, a scoring that cuts nothing off gives
the same results and leaves the same nodes scored under every higher ceiling.
-/

namespace ComplexityMeter.Score

open Syntax (Node Tree)

/-! ### The order of ceilings -/

namespace Ceiling

instance : LE Ceiling where
  le
    | _, .unlimited => True
    | .level low, .level high => low ≤ high
    | .unlimited, .level _ => False

instance : DecidableLE Ceiling
  | .level low, .level high => inferInstanceAs (Decidable (low ≤ high))
  | .level _, .unlimited => .isTrue trivial
  | .unlimited, .unlimited => .isTrue trivial
  | .unlimited, .level _ => .isFalse id

variable {ceiling higher : Ceiling}

theorem isReached_of_le (h : ceiling ≤ higher) {depth : Int}
    (below : ceiling.isReached depth = false) : higher.isReached depth = false := by
  cases higher with
  | unlimited => rfl
  | level high =>
    cases ceiling with
    | unlimited => cases h
    | level low =>
      have order : low ≤ high := h
      simp only [isReached, decide_eq_false_iff_not] at below ⊢
      omega

/-- Under a higher ceiling no fewer levels are left. -/
theorem leaves_of_le (h : ceiling ≤ higher) (depth : Int) (n : Node) :
    ∃ levels more, levels ≤ more ∧ ceiling.Leaves depth levels n
      ∧ higher.Leaves depth more n := by
  cases higher with
  | unlimited =>
    have enough : n.size ≤ max n.size (ceiling.levels depth n) := Nat.le_max_left _ _
    exact ⟨_, _, Nat.le_max_right _ _, ceiling.leaves_levels depth n, enough⟩
  | level high =>
    cases ceiling with
    | unlimited => cases h
    | level low =>
      have order : low ≤ high := h
      exact ⟨_, _, by omega, rfl, rfl⟩

end Ceiling

/-! ### Scores grow with the ceiling -/

variable {ceiling higher : Ceiling}

theorem scoreAlone_le (h : ceiling ≤ higher) {n : Node}
    (distinct : (n.nodes.map Node.identity).Nodup) :
    (scoreAlone (α := ℚ) ceiling n).score ≤ (scoreAlone higher n).score := by
  obtain ⟨levels, more, le, leaves, leavesMore⟩ := Ceiling.leaves_of_le h 0 n
  rw [scoreAlone_eq_compose distinct leaves, scoreAlone_eq_compose distinct leavesMore]
  exact compose_le le n

theorem score_scoreFile_le (h : ceiling ≤ higher) {t : Tree}
    (distinct : (t.root.nodes.map Node.identity).Nodup) :
    (scoreFile (α := ℚ) ceiling t).score ≤ (scoreFile higher t).score := by
  rw [score_scoreFile distinct, score_scoreFile distinct]
  refine add_le_add_right (List.sum_le_sum fun statement hs => ?_) 1
  have alone := Node.distinct_of_mem distinct (Node.mem_nodes_of_mem_children hs)
  exact mul_le_mul_of_nonneg_right (scoreAlone_le h alone) (statementWeight_nonneg statement)

/-! ### Scorings that cut nothing off -/

variable {α : Type} [Scalar α]

/-- No node of a result was cut off. -/
def Result.IsWhole (r : Result α) : Prop :=
  ∀ node ∈ r.preorder, node.isTruncated = false

theorem Result.IsWhole.part {r p : Result α} (whole : r.IsWhole) (hp : p ∈ r.parts) :
    p.IsWhole := by
  intro node hn
  rw [IsWhole, preorder_eq] at whole
  exact whole node (List.mem_cons_of_mem r (List.mem_flatMap.2 ⟨p, hp, hn⟩))

theorem not_isWhole_truncated (n : Node) : ¬ (truncated (α := α) n).IsWhole := by
  intro whole
  have self : truncated n ∈ (truncated (α := α) n).preorder := by
    rw [Result.preorder_eq]
    exact List.mem_cons_self
  cases whole _ self

theorem Result.IsWhole.of_composed {n : Node} {scored : Plan α (Result α)}
    (whole : (composed n scored).IsWhole) : ∀ r ∈ scored.parts, r.IsWhole := by
  intro r hr
  cases scored with
  | recipe scored => exact whole.part hr
  | inner result => rwa [List.mem_singleton.1 hr]

def Context.under (ceiling : Ceiling) (c : Context) : Context :=
  { c with ceiling }

/-- One context differs from another by a higher ceiling, and nothing that is to be scored in the
lower one will be cut off. -/
structure Raised (higher : Ceiling) (rest : List Node) (c c' : Context) (α : Type) [Scalar α] :
    Prop where
  le : c.ceiling ≤ higher
  eq_under : c' = c.under higher
  whole : ∀ r ∈ ((rest.mapM (visit (α := α))).run c).1, r.IsWhole

theorem agree_of_raised {p : Node}
    (h : ∀ c : Context, c.ceiling ≤ higher → (c.score (α := α) p).1.IsWhole →
      (c.under higher).score (α := α) p = ((c.score p).1, (c.score (α := α) p).2.under higher)) :
    Agree (fun rest c c' => Raised higher rest c c' α) [p] (visit (α := α) p) (visit p) := by
  rintro rest c _ ⟨le, rfl, whole⟩
  rw [List.singleton_append, List.mapM_cons] at whole
  have first : (c.score (α := α) p).1.IsWhole := whole _ List.mem_cons_self
  have same := h c le first
  rw [Context.score] at same
  refine ⟨(congrArg Prod.fst same).symm, ?_, congrArg Prod.snd same, ?_⟩
  · exact (grows_score (α := α) p c).ceiling_eq.trans_le le
  · intro r hr
    exact whole r (List.mem_cons_of_mem _ hr)

theorem score_under (n : Node) {c : Context} (h : c.ceiling ≤ higher)
    (whole : (c.score (α := α) n).1.IsWhole) :
    (c.under higher).score (α := α) n = ((c.score n).1, (c.score (α := α) n).2.under higher) := by
  induction n using part_induction α generalizing c with
  | step n ih =>
    cases within : c.isCutOff with
    | true =>
      rw [Context.score_of_cutOff within] at whole
      exact absurd whole (not_isWhole_truncated n)
    | false =>
      have above : (c.under higher).isCutOff = false := Ceiling.isReached_of_le h within
      by_cases known : n.identity ∈ c.visited
      · rw [Context.score_of_visited within known, Context.score_of_visited above known]
      · rw [Context.score_of_new within known] at whole ⊢
        rw [Context.score_of_new above known]
        have results : (c.scoreParts (α := α) n).1.parts
            = (((plan (α := α) n).parts.mapM (visit (α := α))).run (c.enter n)).1 := by
          rw [← Plan.parts_mapM]
          rfl
        have raised : Raised higher (plan (α := α) n).parts (c.enter n)
            ((c.enter n).under higher) α :=
          ⟨h, rfl, results ▸ whole.of_composed⟩
        obtain ⟨same, after⟩ :=
          Agree.plan_run (fun p hp => agree_of_raised fun c' => ih p hp (c := c')) raised
        have left : ((c.under higher).scoreParts (α := α) n).2
            = (c.scoreParts (α := α) n).2.under higher := after.eq_under
        have scored : ((c.under higher).scoreParts (α := α) n).1 = (c.scoreParts n).1 := same.symm
        rw [left, scored]
        rfl

/-- A file of which nothing is cut off has the same result under every higher ceiling. -/
theorem scoreFile_eq_of_isWhole (h : ceiling ≤ higher) {t : Tree}
    (whole : (scoreFile (α := α) ceiling t).IsWhole) :
    scoreFile (α := α) higher t = scoreFile ceiling t := by
  have raised : Raised higher t.root.children (fileContext ceiling t) (fileContext higher t) α :=
    ⟨h, rfl, fun r hr => whole.part hr⟩
  have each : ∀ p ∈ t.root.children,
      Agree (fun rest c c' => Raised higher rest c c' α) [p] (visit (α := α) p) (visit p) :=
    fun p _ => agree_of_raised fun c => score_under p
  have same := (Agree.list each [] _ _ (by rwa [List.append_nil])).1
  have results : statementResults (α := α) ceiling t = statementResults higher t := same
  rw [scoreFile, scoreFile, results]

end ComplexityMeter.Score
