import Mathlib.Algebra.Order.Floor.Ring
import Mathlib.Tactic.Linarith
import Mathlib.Tactic.NormNum
import Mathlib.Tactic.Ring
import ComplexityMeter.Proofs.Exact
import ComplexityMeter.Proofs.Score.Ranking

/-!
# Order statistics of result trees

Between the scores of a tree, in order, lies a line through all of them. Its value at a fractional
place is found by linear interpolation, and it grows with the place. The median is its value halfway
and the ninetieth percentile the one at nine tenths of the way, so they lie between the least score
and the greatest one in this order, and both are read off the scores alone.
-/

namespace ComplexityMeter.Score

/-! ### The line through the values of a function -/

/-- The value at a fractional place, on the straight line between its two neighbours. -/
def interpolated (f : ℕ → ℚ) (place : ℚ) : ℚ :=
  f ⌊place⌋₊ + (f (⌊place⌋₊ + 1) - f ⌊place⌋₊) * Int.fract place

section

variable {f : ℕ → ℚ}

/-- A place is given by the neighbour below it and by what it is behind that. -/
theorem interpolated_add (k : ℕ) {t : ℚ} (nonneg : 0 ≤ t) (less : t < 1) :
    interpolated f (k + t) = f k + (f (k + 1) - f k) * t := by
  have below : ⌊(k : ℚ) + t⌋₊ = k := by
    rw [add_comm, Nat.floor_add_natCast nonneg, Nat.floor_eq_zero.2 less, Nat.zero_add]
  rw [interpolated, below, Int.fract_natCast_add, Int.fract_eq_self.2 ⟨nonneg, less⟩]

theorem interpolated_natCast (k : ℕ) : interpolated f k = f k := by
  have whole := interpolated_add (f := f) k le_rfl zero_lt_one
  rwa [add_zero, mul_zero, add_zero] at whole

variable (mono : Monotone f)
include mono

/-- The line stays between the values at the neighbours of a place. -/
theorem le_interpolated (place : ℚ) : f ⌊place⌋₊ ≤ interpolated f place :=
  le_add_of_nonneg_right
    (mul_nonneg (sub_nonneg.2 (mono (Nat.le_succ _))) (Int.fract_nonneg place))

theorem interpolated_le (place : ℚ) : interpolated f place ≤ f (⌊place⌋₊ + 1) := by
  have part := mul_le_of_le_one_right (sub_nonneg.2 (mono (Nat.le_succ ⌊place⌋₊)))
    (Int.fract_lt_one place).le
  rw [interpolated]
  linarith

theorem interpolated_mono {p q : ℚ} (nonneg : 0 ≤ p) (le : p ≤ q) :
    interpolated f p ≤ interpolated f q := by
  rcases (Nat.floor_mono le).eq_or_lt with same | apart
  · have behind : Int.fract p ≤ Int.fract q := by
      have floors : (⌊p⌋ : ℚ) = ⌊q⌋ := by
        rw [← Int.natCast_floor_eq_floor nonneg,
          ← Int.natCast_floor_eq_floor (nonneg.trans le), same]
      rw [Int.fract, Int.fract, floors]
      exact sub_le_sub_right le _
    rw [interpolated, interpolated, same]
    exact add_le_add_right
      (mul_le_mul_of_nonneg_left behind (sub_nonneg.2 (mono (Nat.le_succ _)))) _
  · calc interpolated f p ≤ f (⌊p⌋₊ + 1) := interpolated_le mono p
      _ ≤ f ⌊q⌋₊ := mono apart
      _ ≤ interpolated f q := le_interpolated mono q

end

/-! ### Scores in order -/

/-- The score in a place of a list; behind its end, the last one. -/
def scoreAt (scores : List ℚ) (k : ℕ) : ℚ :=
  scores.getD (min k (scores.length - 1)) 0

section

variable {scores : List ℚ}

theorem getElem?_eq_scoreAt {k : ℕ} (inside : k < scores.length) :
    scores[k]? = some (scoreAt scores k) := by
  rw [scoreAt, Nat.min_eq_left (by omega), List.getD_eq_getElem scores 0 inside,
    List.getElem?_eq_getElem inside]

theorem getD_getElem?_succ {k : ℕ} (inside : k < scores.length) :
    scores[k + 1]?.getD (scoreAt scores k) = scoreAt scores (k + 1) := by
  by_cases next : k + 1 < scores.length
  · rw [getElem?_eq_scoreAt next, Option.getD_some]
  · rw [List.getElem?_eq_none (by omega), Option.getD_none, scoreAt, scoreAt,
      Nat.min_eq_left (by omega), Nat.min_eq_right (by omega)]
    congr 1
    omega

theorem scoreAt_mem (nonempty : scores ≠ []) (k : ℕ) : scoreAt scores k ∈ scores := by
  have positive := List.length_pos_iff.2 nonempty
  rw [scoreAt, List.getD_eq_getElem scores 0 (by omega)]
  exact List.getElem_mem _

theorem exists_scoreAt_eq {x : ℚ} (hx : x ∈ scores) :
    ∃ k, k ≤ scores.length - 1 ∧ scoreAt scores k = x := by
  obtain ⟨k, inside, rfl⟩ := List.mem_iff_getElem.1 hx
  refine ⟨k, by omega, ?_⟩
  rw [scoreAt, Nat.min_eq_left (by omega), List.getD_eq_getElem scores 0 inside]

theorem scoreAt_mono (sorted : scores.Pairwise (· ≤ ·)) : Monotone (scoreAt scores) := by
  intro j k le
  rcases eq_or_ne scores [] with rfl | nonempty
  · exact le_rfl
  · have positive := List.length_pos_iff.2 nonempty
    rw [scoreAt, scoreAt, List.getD_eq_getElem scores 0 (by omega),
      List.getD_eq_getElem scores 0 (by omega)]
    exact sorted.rel_get_of_le (a := ⟨_, _⟩) (b := ⟨_, _⟩) (by simp; omega)

theorem median_eq (nonempty : scores ≠ []) :
    median scores = some (interpolated (scoreAt scores) (1 / 2 * ↑(scores.length - 1))) := by
  have positive := List.length_pos_iff.2 nonempty
  rw [median]
  split
  case isTrue odd =>
    have place : (1 / 2 * ↑(scores.length - 1) : ℚ) = ↑(scores.length / 2) := by
      have whole : scores.length - 1 = 2 * (scores.length / 2) := by omega
      rw [whole]
      push_cast
      ring
    rw [place, interpolated_natCast, getElem?_eq_scoreAt (by omega)]
  case isFalse even =>
    have place : (1 / 2 * ↑(scores.length - 1) : ℚ) = ↑(scores.length / 2 - 1) + 1 / 2 := by
      have whole : scores.length - 1 = 2 * (scores.length / 2 - 1) + 1 := by omega
      rw [whole]
      push_cast
      ring
    have next : scores.length / 2 - 1 + 1 = scores.length / 2 := by omega
    rw [place, interpolated_add _ (by norm_num) (by norm_num), next,
      getElem?_eq_scoreAt (by omega), getElem?_eq_scoreAt (by omega)]
    refine congrArg some ?_
    norm_num
    ring

/-- Both formulas of interpolation give the point of the line. -/
theorem quantile_eq (nonempty : scores ≠ []) {fraction : ℚ} (nonneg : 0 ≤ fraction)
    (le : fraction ≤ 1) :
    quantile fraction scores
      = some (interpolated (scoreAt scores) (fraction * ↑(scores.length - 1))) := by
  have positive := List.length_pos_iff.2 nonempty
  rw [quantile]
  have last : (0 : ℚ) ≤ ↑(scores.length - 1) := Nat.cast_nonneg _
  generalize hplace : fraction * (↑(scores.length - 1) : ℚ) = place
  have place_nonneg : 0 ≤ place := hplace ▸ mul_nonneg nonneg last
  have floor : (Scalar.floor place).toNat = ⌊place⌋₊ := Int.floor_toNat place
  have inside : ⌊place⌋₊ < scores.length := by
    have bound : place ≤ ↑(scores.length - 1) := hplace ▸ mul_le_of_le_one_left last le
    have := Nat.floor_le_of_le bound
    omega
  have behind : place - (⌊place⌋₊ : ℚ) = Int.fract place := by
    rw [Int.fract, ← Int.natCast_floor_eq_floor place_nonneg]
    norm_cast
  dsimp only
  rw [floor, getElem?_eq_scoreAt inside]
  dsimp only
  rw [getD_getElem?_succ inside, behind, interpolated]
  split
  · refine congrArg some ?_
    norm_num
    ring
  · rfl

end

/-! ### Summaries -/

def Result.scores (r : Result ℚ) : List ℚ :=
  r.preorder.map Result.score

theorem Result.scores_ne_nil (r : Result ℚ) : r.scores ≠ [] := by
  rw [scores, r.preorder_eq, List.map_cons]
  exact List.cons_ne_nil _ _

theorem sortedScores_flatten_perm (r : Result ℚ) : (sortedScores (flatten r)).Perm r.scores := by
  have listed : (flatten r).map (fun e => (1.0 : ℚ) * e.score) = r.scores := by
    rw [flatten, List.map_map, Result.scores]
    refine List.map_congr_left fun node _ => ?_
    change (1.0 : ℚ) * node.score = node.score
    norm_num
  rw [sortedScores, listed]
  exact List.mergeSort_perm _ _

theorem pairwise_sortedScores (r : Result ℚ) :
    (sortedScores (flatten r)).Pairwise (· ≤ ·) := by
  have sorted : (sortedScores (flatten r)).Pairwise fun a b => decide (a ≤ b) := by
    rw [sortedScores]
    exact List.pairwise_mergeSort (by simpa using fun _ _ _ => le_trans)
      (by simpa using le_total) _
  simpa using sorted

theorem incomparable?_eq_none (xs : List ℚ) : incomparable? xs = none := by
  rw [incomparable?, List.find?_eq_none]
  simp

/-- Scores in order give the median of a summary and its ninetieth percentile: the values halfway
along the line through them and at nine tenths of the way. -/
theorem quantiles_summarize {r : Result ℚ} (topCount : ℤ) {sorted : List ℚ}
    (perm : sorted.Perm r.scores) (inOrder : sorted.Pairwise (· ≤ ·)) :
    (summarize topCount r).median
        = interpolated (scoreAt sorted) (1 / 2 * ↑(sorted.length - 1))
      ∧ (summarize topCount r).ninetieth
        = interpolated (scoreAt sorted) (9 / 10 * ↑(sorted.length - 1)) := by
  obtain rfl : sorted = sortedScores (flatten r) :=
    (perm.trans (sortedScores_flatten_perm r).symm).eq_of_pairwise
      (fun _ _ _ _ => le_antisymm) inOrder (pairwise_sortedScores r)
  have nonempty : sortedScores (flatten r) ≠ [] := fun empty =>
    r.scores_ne_nil (by simpa [empty] using perm)
  have tenths : (0.9 : ℚ) = 9 / 10 := by norm_num
  have upper : quantile (0.9 : ℚ) (sortedScores (flatten r)) = _ :=
    quantile_eq nonempty (by norm_num) (by norm_num)
  rw [summarize]
  dsimp only
  rw [incomparable?_eq_none, Option.none_or, Option.none_or, median_eq nonempty, upper, tenths]
  exact ⟨rfl, rfl⟩

/-- The first entry of the top scores what no node exceeds. -/
theorem exists_head_top (r : Result ℚ) {topCount : ℤ} (positive : 1 ≤ topCount) :
    ∃ top, (summarize topCount r).top.head? = some top ∧ top.score ∈ r.scores
      ∧ ∀ x ∈ r.scores, x ≤ top.score := by
  have order : Scalar.Comparable fun _ : ℚ => True := .of_linear
  have listed : (flatten r).map Entry.score = r.scores := by
    rw [flatten, List.map_map, Result.scores]
    rfl
  have perm : (ranked Entry.score (flatten r)).Perm (flatten r) :=
    ranked_perm order fun _ _ => trivial
  have descending : (ranked Entry.score (flatten r)).Pairwise fun a b => b.score ≤ a.score :=
    ranked_descending order fun _ _ => trivial
  have nonempty : ranked Entry.score (flatten r) ≠ [] := fun empty =>
    r.scores_ne_nil (by simpa [empty, ← listed] using perm.symm)
  obtain ⟨top, rest, ranking⟩ := List.exists_cons_of_ne_nil nonempty
  rw [ranking] at perm descending
  refine ⟨top, ?_, ?_, ?_⟩
  · obtain ⟨count, rfl⟩ := Int.eq_succ_of_zero_lt positive
    change ((ranked Entry.score (flatten r)).take (count + 1)).head? = some top
    rw [ranking, List.take_succ_cons, List.head?_cons]
  · rw [← listed]
    exact List.mem_map_of_mem (perm.mem_iff.1 List.mem_cons_self)
  · rw [← listed, List.forall_mem_map]
    intro e he
    rcases List.mem_cons.1 (perm.mem_iff.2 he) with rfl | he
    · exact le_rfl
    · exact (List.pairwise_cons.1 descending).1 e he

/-- What the order statistics of a summary say about the scores that they are taken of. -/
structure AreOrderStatistics (scores : List ℚ) (median ninetieth : ℚ) : Prop where
  /-- Halfway along the line through the scores in order, -/
  median_eq : ∀ sorted, sorted.Perm scores → sorted.Pairwise (· ≤ ·) →
    median = interpolated (scoreAt sorted) (1 / 2 * ↑(sorted.length - 1))
  /-- and at nine tenths of the way. -/
  ninetieth_eq : ∀ sorted, sorted.Perm scores → sorted.Pairwise (· ≤ ·) →
    ninetieth = interpolated (scoreAt sorted) (9 / 10 * ↑(sorted.length - 1))
  /-- Some score is the least one. -/
  least : ∃ least ∈ scores, (∀ x ∈ scores, least ≤ x) ∧ least ≤ median
  median_le : median ≤ ninetieth
  /-- Some score is the greatest one. -/
  greatest : ∃ greatest ∈ scores, (∀ x ∈ scores, x ≤ greatest) ∧ ninetieth ≤ greatest

theorem areOrderStatistics_summarize (r : Result ℚ) (topCount : ℤ) :
    AreOrderStatistics r.scores (summarize topCount r).median (summarize topCount r).ninetieth := by
  have perm := sortedScores_flatten_perm r
  have inOrder := pairwise_sortedScores r
  obtain ⟨middle, upper⟩ := quantiles_summarize topCount perm inOrder
  have nonempty : sortedScores (flatten r) ≠ [] := fun empty =>
    r.scores_ne_nil (by simpa [empty] using perm)
  have mono := scoreAt_mono inOrder
  have last : (0 : ℚ) ≤ ↑((sortedScores (flatten r)).length - 1) := Nat.cast_nonneg _
  refine ⟨fun sorted perm inOrder => (quantiles_summarize topCount perm inOrder).1,
    fun sorted perm inOrder => (quantiles_summarize topCount perm inOrder).2,
    ⟨scoreAt (sortedScores (flatten r)) 0, perm.mem_iff.1 (scoreAt_mem nonempty 0), ?_, ?_⟩, ?_,
    ⟨scoreAt (sortedScores (flatten r)) ((sortedScores (flatten r)).length - 1),
      perm.mem_iff.1 (scoreAt_mem nonempty _), ?_, ?_⟩⟩
  · intro x hx
    obtain ⟨k, -, rfl⟩ := exists_scoreAt_eq (perm.mem_iff.2 hx)
    exact mono (Nat.zero_le k)
  · rw [middle, ← interpolated_natCast (f := scoreAt _) 0, Nat.cast_zero]
    exact interpolated_mono mono le_rfl (by positivity)
  · rw [middle, upper]
    exact interpolated_mono mono (by positivity) (mul_le_mul_of_nonneg_right (by norm_num) last)
  · intro x hx
    obtain ⟨k, inside, rfl⟩ := exists_scoreAt_eq (perm.mem_iff.2 hx)
    exact mono inside
  · rw [upper, ← interpolated_natCast (f := scoreAt _) ((sortedScores (flatten r)).length - 1)]
    exact interpolated_mono mono (by positivity) (mul_le_of_le_one_left last (by norm_num))

/-- With scores read as exact numbers, the median of a summary and its ninetieth percentile are
found on the line through the scores in order, halfway and at nine tenths of the way, between the
least score and the greatest. The greatest one is that of the first entry of the top, where the top
has any. Trees with the same scores, each as often, have the same median and percentile, whatever
their shapes. -/
theorem summary_statistics :
    (∀ (r : Result ℚ) (topCount : ℤ),
      AreOrderStatistics r.scores (summarize topCount r).median (summarize topCount r).ninetieth
      ∧ (1 ≤ topCount → ∃ top, (summarize topCount r).top.head? = some top
        ∧ top.score ∈ r.scores ∧ ∀ x ∈ r.scores, x ≤ top.score))
    ∧ ∀ (r r' : Result ℚ) (topCount topCount' : ℤ), r.scores.Perm r'.scores →
      (summarize topCount r).median = (summarize topCount' r').median
      ∧ (summarize topCount r).ninetieth = (summarize topCount' r').ninetieth := by
  refine ⟨fun r topCount => ⟨areOrderStatistics_summarize r topCount, exists_head_top r⟩,
    fun r r' topCount topCount' same => ?_⟩
  have perm := sortedScores_flatten_perm r
  have inOrder := pairwise_sortedScores r
  obtain ⟨middle, upper⟩ := quantiles_summarize topCount perm inOrder
  obtain ⟨middle', upper'⟩ := quantiles_summarize topCount' (perm.trans same) inOrder
  exact ⟨middle.trans middle'.symm, upper.trans upper'.symm⟩

def unforked : Result ℚ :=
  ⟨"root", 4, none, [],
    [⟨"first", 6, none, [], [⟨"second", 10, none, [], [⟨"third", 6, none, [], []⟩]⟩]⟩]⟩

theorem summary_statistics_forked :
    (forked (α := ℚ)).scores = [10, 4, 6, 6]
    ∧ unforked.scores.Perm (forked (α := ℚ)).scores
    ∧ (summarize 2 (forked (α := ℚ))).median = 6
    ∧ (summarize 2 (forked (α := ℚ))).ninetieth = 44 / 5
    ∧ (summarize 0 unforked).median = 6 ∧ (summarize 0 unforked).ninetieth = 44 / 5
    ∧ ∃ top, (summarize 2 (forked (α := ℚ))).top.head? = some top
      ∧ ∀ x ∈ (forked (α := ℚ)).scores, x ≤ top.score := by
  have scores : (forked (α := ℚ)).scores = [10, 4, 6, 6] := by
    norm_num [Result.scores, Result.preorder_eq, forked]
  have scores' : unforked.scores = [4, 6, 10, 6] := by
    simp [Result.scores, Result.preorder_eq, unforked]
  have same : unforked.scores.Perm (forked (α := ℚ)).scores := by
    rw [scores, scores']
    decide
  obtain ⟨statistics, top⟩ := summary_statistics.1 (forked (α := ℚ)) 2
  obtain ⟨median, ninetieth⟩ := summary_statistics.2 unforked (forked (α := ℚ)) 0 2 same
  have inOrder : [4, 6, 6, 10].Perm (forked (α := ℚ)).scores := by
    rw [scores]
    decide
  have middle := statistics.median_eq [4, 6, 6, 10] inOrder (by decide +kernel)
  have upper := statistics.ninetieth_eq [4, 6, 6, 10] inOrder (by decide +kernel)
  obtain ⟨first, head, -, greatest⟩ := top (by decide)
  have six : interpolated (scoreAt [4, 6, 6, 10]) (1 / 2 * ↑([4, 6, 6, 10].length - 1)) = 6 := by
    decide +kernel
  have nearNine : interpolated (scoreAt [4, 6, 6, 10]) (9 / 10 * ↑([4, 6, 6, 10].length - 1))
      = 44 / 5 := by
    decide +kernel
  exact ⟨scores, same, middle.trans six, upper.trans nearNine, median.trans (middle.trans six),
    ninetieth.trans (upper.trans nearNine), first, head, greatest⟩

end ComplexityMeter.Score
