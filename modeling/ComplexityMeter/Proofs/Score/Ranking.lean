import ComplexityMeter.Proofs.Place
import ComplexityMeter.Proofs.Score.Listing

/-!
# Rankings of result trees

Between numbers that compare, a ranking takes the items one by one and puts each in front of the
first that scores no more. So it holds all items, the highest first, keeps ties in their order, and
to leave items out before or after ranking is the same. The nodes that reach a higher threshold are
therefore a beginning of those that reach a lower one, and the top of a summary is a beginning of
those that reach a threshold which leaves no node out.
-/

namespace ComplexityMeter.Score

variable {α β γ : Type} [Scalar α] {P : α → Prop} {score : β → α} {items : List β}

/-! ### How a ranking is made -/

theorem ranked_eq_mergeSort (reflexive : ∀ a ∈ items, score a ≤ score a) :
    ranked score items = items.mergeSort fun a b => decide (score b ≤ score a) := by
  rw [ranked, if_pos (by simpa using reflexive)]

theorem ranked_nil : ranked score [] = [] := by
  rw [ranked_eq_mergeSort (by simp), List.mergeSort_nil]

/-- A further item in front of all others is ranked behind those that score more, and only those. -/
theorem exists_ranked_cons (order : Scalar.Comparable P) {a : β} (ha : P (score a))
    (h : ∀ b ∈ items, P (score b)) :
    ∃ higher others, ranked score (a :: items) = higher ++ a :: others
      ∧ ranked score items = higher ++ others
      ∧ (∀ b ∈ higher, ¬ score b ≤ score a) ∧ ∀ b ∈ others, score b ≤ score a := by
  -- the comparison need not be total, but it is among the items whose scores compare
  let before (x y : { b // P (score b) }) : Bool := decide (score y.1 ≤ score x.1)
  have trans (x y z) (first : before x y = true) (second : before y z = true) :
      before x z = true := by
    simp only [before, decide_eq_true_eq] at first second ⊢
    exact order.le_trans z.2 y.2 x.2 second first
  have total (x y) : (before x y || before y x) = true := by
    simpa [before] using order.le_total y.2 x.2
  have unwrapped (wrapped : List { b // P (score b) }) :
      ranked score (wrapped.map Subtype.val) = (wrapped.mergeSort before).map Subtype.val := by
    rw [ranked_eq_mergeSort (by simpa using fun b hb _ => order.le_refl hb)]
    exact (List.map_mergeSort (f := Subtype.val) fun _ _ _ _ => rfl).symm
  have split := unwrapped (items.attachWith _ h)
  have entire := unwrapped (⟨a, ha⟩ :: items.attachWith _ h)
  have sorted := List.pairwise_mergeSort trans total (⟨a, ha⟩ :: items.attachWith _ h)
  obtain ⟨higher, others, whole, rest, above⟩ :=
    List.mergeSort_cons trans total ⟨a, ha⟩ (items.attachWith _ h)
  rw [List.attachWith_map_subtype_val, rest, List.map_append] at split
  rw [List.map_cons, List.attachWith_map_subtype_val, whole, List.map_append, List.map_cons]
    at entire
  rw [whole, List.pairwise_append, List.pairwise_cons] at sorted
  refine ⟨_, _, entire, split, ?_, ?_⟩
  · simpa [before] using above
  · simpa [before] using sorted.2.1.1

omit [Scalar α] in
theorem append_inj_of_forall {p : β → Prop} [DecidablePred p] {xs ys xs' ys' : List β}
    (same : xs ++ ys = xs' ++ ys') (hx : ∀ b ∈ xs, ¬ p b) (hy : ∀ b ∈ ys, p b)
    (hx' : ∀ b ∈ xs', ¬ p b) (hy' : ∀ b ∈ ys', p b) : xs = xs' ∧ ys = ys' := by
  have first {xs ys : List β} (hx : ∀ b ∈ xs, ¬ p b) (hy : ∀ b ∈ ys, p b) :
      (xs ++ ys).filter (fun b => !decide (p b)) = xs := by
    rw [List.filter_append, List.filter_eq_self.2 (by simpa using hx),
      List.filter_eq_nil_iff.2 (by simpa using hy), List.append_nil]
  have front : xs = xs' := by rw [← first hx hy, same, first hx' hy']
  exact ⟨front, List.append_cancel_left (front ▸ same)⟩

/-- Where the others are ranked, the item stands between those that score more and those that do
not. -/
theorem ranked_cons (order : Scalar.Comparable P) {a : β} (ha : P (score a))
    (h : ∀ b ∈ items, P (score b)) {higher others : List β}
    (split : ranked score items = higher ++ others) (above : ∀ b ∈ higher, ¬ score b ≤ score a)
    (below : ∀ b ∈ others, score b ≤ score a) :
    ranked score (a :: items) = higher ++ a :: others := by
  obtain ⟨higher', others', whole, rest, above', below'⟩ := exists_ranked_cons order ha h
  obtain ⟨rfl, rfl⟩ := append_inj_of_forall (rest.symm.trans split) above' below' above below
  exact whole

/-! ### What a ranking keeps -/

theorem filter_ranked (order : Scalar.Comparable P) (h : ∀ b ∈ items, P (score b))
    (p : β → Bool) : (ranked score items).filter p = ranked score (items.filter p) := by
  induction items with
  | nil => rw [ranked_nil, List.filter_nil, ranked_nil]
  | cons a items ih =>
    obtain ⟨ha, h⟩ := List.forall_mem_cons.1 h
    obtain ⟨higher, others, whole, rest, above, below⟩ := exists_ranked_cons order ha h
    have rest' : ranked score (items.filter p) = higher.filter p ++ others.filter p := by
      rw [← ih h, rest, List.filter_append]
    rw [whole, List.filter_append]
    by_cases hp : p a = true
    · have kept : ∀ b ∈ items.filter p, P (score b) := fun b hb => h b (List.mem_of_mem_filter hb)
      rw [List.filter_cons_of_pos hp, List.filter_cons_of_pos hp]
      exact (ranked_cons order ha kept rest'
        (fun b hb => above b (List.mem_of_mem_filter hb))
        fun b hb => below b (List.mem_of_mem_filter hb)).symm
    · rw [List.filter_cons_of_neg hp, List.filter_cons_of_neg hp, rest']

theorem ranked_perm (order : Scalar.Comparable P) (h : ∀ b ∈ items, P (score b)) :
    (ranked score items).Perm items := by
  rw [ranked_eq_mergeSort fun b hb => order.le_refl (h b hb)]
  exact List.mergeSort_perm items _

theorem ranked_descending (order : Scalar.Comparable P) (h : ∀ b ∈ items, P (score b)) :
    (ranked score items).Pairwise fun a b => score b ≤ score a := by
  induction items with
  | nil => rw [ranked_nil]; exact .nil
  | cons a items ih =>
    obtain ⟨ha, h⟩ := List.forall_mem_cons.1 h
    obtain ⟨higher, others, whole, rest, above, below⟩ := exists_ranked_cons order ha h
    have sorted := ih h
    have compares : ∀ b ∈ higher ++ others, P (score b) := fun b hb =>
      h b ((ranked_perm order h).mem_iff.1 (rest ▸ hb))
    rw [rest, List.pairwise_append] at sorted
    rw [whole, List.pairwise_append, List.pairwise_cons]
    refine ⟨sorted.1, ⟨below, sorted.2.1⟩, fun b hb c hc => ?_⟩
    rcases List.mem_cons.1 hc with rfl | hc
    · exact (order.le_total ha (compares b (List.mem_append_left _ hb))).resolve_right (above b hb)
    · exact sorted.2.2 b hb c hc

theorem ranked_of_descending (reflexive : ∀ a ∈ items, score a ≤ score a)
    (descending : items.Pairwise fun a b => score b ≤ score a) : ranked score items = items := by
  rw [ranked_eq_mergeSort reflexive]
  exact List.mergeSort_of_pairwise (by simpa using descending)

/-- Images of items are ranked as the items are by the scores of their images. -/
theorem ranked_map {score : γ → α} (f : β → γ)
    (reflexive : ∀ a ∈ items, score (f a) ≤ score (f a)) :
    ranked score (items.map f) = (ranked (fun a => score (f a)) items).map f := by
  rw [ranked_eq_mergeSort reflexive, ranked_eq_mergeSort (by simpa using reflexive)]
  exact (List.map_mergeSort (f := f) fun _ _ _ _ => rfl).symm

/-- Some items in the order of a ranking. -/
structure IsRanking (score : β → α) (items out : List β) : Prop where
  /-- All items occur, and no others, -/
  perm : out.Perm items
  /-- the highest score first, -/
  descending : out.Pairwise fun a b => score b ≤ score a
  /-- and items of equal score in the order that they had. -/
  stable : ∀ a ∈ items, out.filter (fun b => score a ≤ score b ∧ score b ≤ score a)
    = items.filter fun b => score a ≤ score b ∧ score b ≤ score a

theorem isRanking_ranked (order : Scalar.Comparable P) (h : ∀ b ∈ items, P (score b)) :
    IsRanking score items (ranked score items) where
  perm := ranked_perm order h
  descending := ranked_descending order h
  stable a ha := by
    rw [filter_ranked order h]
    have tied : ∀ b ∈ items.filter fun b => score a ≤ score b ∧ score b ≤ score a,
        P (score b) ∧ score a ≤ score b ∧ score b ≤ score a := fun b hb => by
      obtain ⟨hb, ties⟩ := List.mem_filter.1 hb
      exact ⟨h b hb, of_decide_eq_true ties⟩
    refine ranked_of_descending (fun b hb => order.le_refl (tied b hb).1)
      (List.pairwise_of_forall_mem_list fun b hb c hc => ?_)
    obtain ⟨hb, above, -⟩ := tied b hb
    obtain ⟨hc, -, below⟩ := tied c hc
    exact order.le_trans hc (h a ha) hb below above

omit [Scalar α] in
/-- What an upper part of a list in order holds stands at its beginning. -/
theorem filter_prefix_of_pairwise {R : β → β → Prop} {p : β → Bool} (sorted : items.Pairwise R)
    (upper : ∀ a ∈ items, ∀ b ∈ items, R a b → p b = true → p a = true) :
    items.filter p <+: items := by
  induction items with
  | nil => exact List.prefix_rfl
  | cons a items ih =>
    obtain ⟨first, sorted⟩ := List.pairwise_cons.1 sorted
    by_cases hp : p a = true
    · rw [List.filter_cons_of_pos hp, List.prefix_cons_inj]
      exact ih sorted fun b hb c hc =>
        upper b (List.mem_cons_of_mem _ hb) c (List.mem_cons_of_mem _ hc)
    · have none : items.filter p = [] := List.filter_eq_nil_iff.2 fun b hb hpb =>
        hp (upper a List.mem_cons_self b (List.mem_cons_of_mem _ hb) (first b hb) hpb)
      rw [List.filter_cons_of_neg hp, none]
      exact List.nil_prefix

/-! ### Thresholds -/

section

variable {low high : α}

/-- The items that reach a higher threshold, among those that reach a lower one. -/
theorem filter_ranked_reaching (order : Scalar.Comparable P) (h : ∀ b ∈ items, P (score b))
    (hl : P low) (hh : P high) (le : low ≤ high) :
    (ranked score (items.filter fun b => decide (low ≤ score b))).filter
        (fun b => decide (high ≤ score b))
      = ranked score (items.filter fun b => decide (high ≤ score b)) := by
  rw [filter_ranked order fun b hb => h b (List.mem_of_mem_filter hb), List.filter_filter]
  refine congrArg _ (List.filter_congr fun b hb => ?_)
  rw [Bool.and_eq_left_iff_imp]
  simpa using order.le_trans hl hh (h b hb) le

theorem ranked_reaching_prefix (order : Scalar.Comparable P) (h : ∀ b ∈ items, P (score b))
    (hl : P low) (hh : P high) (le : low ≤ high) :
    ranked score (items.filter fun b => decide (high ≤ score b))
      <+: ranked score (items.filter fun b => decide (low ≤ score b)) := by
  have reach : ∀ b ∈ items.filter (fun b => decide (low ≤ score b)), P (score b) :=
    fun b hb => h b (List.mem_of_mem_filter hb)
  have listed : ∀ b ∈ ranked score (items.filter fun b => decide (low ≤ score b)), P (score b) :=
    fun b hb => reach b ((ranked_perm order reach).mem_iff.1 hb)
  rw [← filter_ranked_reaching order h hl hh le]
  refine filter_prefix_of_pairwise (ranked_descending order reach) fun a ha b hb above high => ?_
  simp only [decide_eq_true_eq] at high ⊢
  exact order.le_trans hh (listed b hb) (listed a ha) high above

end

/-! ### Hotspots -/

variable {r : Result α}

theorem top_summarize (order : Scalar.Comparable P) (scores : ∀ node ∈ r.preorder, P node.score)
    (count : Nat) {threshold : α} (least : ∀ node ∈ r.preorder, threshold ≤ node.score) :
    (summarize count r).top = ((hotspots threshold r).take count).map Result.entry := by
  have all : r.preorder.filter (fun node => decide (threshold ≤ node.score)) = r.preorder :=
    List.filter_eq_self.2 fun node hn => decide_eq_true (least node hn)
  have top : (summarize count r).top = (ranked Entry.score (flatten r)).take count := rfl
  rw [top, flatten, ranked_map Result.entry fun node hn => order.le_refl (scores node hn),
    hotspots, all, List.map_take]
  rfl

/-- Where the scores of a tree compare, as they all do in a linear order (`Comparable.of_linear`)
and as numbers other than NaN do (`Number.comparable`), the hotspots are a ranking of the nodes that
reach the threshold, a higher threshold keeps a beginning of it, and a summary has its entries from
the beginning of the hotspots of any threshold that all nodes reach. The same holds of the summaries
of numbers that may outgrow the doubles. -/
theorem hotspots_ranking :
    (∀ {α : Type} [Scalar α] {P : α → Prop}, Scalar.Comparable P → ∀ r : Result α,
      (∀ node ∈ r.preorder, P node.score) →
        (∀ threshold, IsRanking Result.score
          (r.preorder.filter fun node => decide (threshold ≤ node.score)) (hotspots threshold r))
        ∧ (∀ low high, P low → P high → low ≤ high → hotspots high r <+: hotspots low r)
        ∧ ∀ (count : ℕ) (threshold : α), (∀ node ∈ r.preorder, threshold ≤ node.score) →
          (summarize count r).top = ((hotspots threshold r).take count).map Result.entry)
    ∧ ∀ (r : Result Number) (count : ℕ) (threshold : Number) (summary : Summary Number),
      (∀ node ∈ r.preorder, node.score.IsPlaced) →
      (∀ node ∈ r.preorder, threshold ≤ node.score) →
      boundedSummary (.ok count) r = .ok summary →
        summary.top = ((hotspots threshold r).take count).map Result.entry := by
  refine ⟨fun {α _ P} order r scores => ⟨fun threshold => ?_, fun low high hl hh le => ?_,
    fun count threshold least => ?_⟩, fun r count threshold summary scores least bounded => ?_⟩
  · exact isRanking_ranked order fun node hn => scores node (List.mem_of_mem_filter hn)
  · exact ranked_reaching_prefix order scores hl hh le
  · exact top_summarize order scores count least
  · obtain ⟨-, rfl⟩ := boundedSummary_eq_ok_iff.1 bounded
    exact top_summarize Number.comparable scores count least

def forkedFromFive : List (Result Number) :=
  [forked, ⟨"low", 6.0, none, [], []⟩, ⟨"right", 6.0, none, [], []⟩]

/-- The nodes that score the same stay in the order of the tree, and what scores less stands behind
them in the hotspots of a threshold that every node reaches. -/
theorem hotspots_ranking_forked :
    (∀ node ∈ (forked (α := Number)).preorder, node.score.IsPlaced ∧ Number.int 4 ≤ node.score)
    ∧ IsRanking Result.score forkedFromFive (hotspots (.int 5) forked)
    ∧ (hotspots (.int 5) (forked (α := Number))).map Result.kind = ["root", "low", "right"]
    ∧ hotspots (.int 5) (forked (α := Number)) <+: hotspots (.int 4) forked
    ∧ ∃ summary, boundedSummary (.ok 3) (forked (α := Number)) = .ok summary
      ∧ summary.top.map Entry.kind = ["root", "low", "right"] := by
  have listed : (forked (α := Number)).preorder = ((forked (α := Number)).tour 1).map Prod.fst := by
    rw [Result.preorder, Result.preorderDepths_eq]
  have reach : (forked (α := Number)).preorder.filter (fun node => decide (.int 5 ≤ node.score))
      = forkedFromFive := by
    rw [listed]
    rfl
  have scores : ∀ node ∈ (forked (α := Number)).preorder,
      node.score.IsPlaced ∧ Number.int 4 ≤ node.score := by
    rw [listed]
    decide +kernel
  have placed := fun node hn => (scores node hn).1
  have least := fun node hn => (scores node hn).2
  obtain ⟨ranking, beginning, -⟩ := hotspots_ranking.1 Number.comparable forked placed
  have ranking := ranking (.int 5)
  have beginning := beginning (.int 4) (.int 5) (by decide) (by decide) (by decide)
  rw [reach] at ranking
  have upper : hotspots (.int 5) (forked (α := Number)) = forkedFromFive := by
    rw [hotspots, reach]
    exact ranked_of_descending (by decide +kernel) (by decide +kernel)
  have first : (hotspots (.int 4) (forked (α := Number))).take 3 = forkedFromFive := by
    rw [upper, List.prefix_iff_eq_take] at beginning
    exact beginning.symm
  have bounded : boundedSummary (.ok 3) (forked (α := Number)) = .ok (summarize 3 forked) := by
    refine boundedSummary_eq_ok_iff.2 ⟨?_, rfl⟩
    rw [flatten, listed]
    decide +kernel
  have top := hotspots_ranking.2 forked 3 (.int 4) _ placed least bounded
  refine ⟨scores, ranking, by rw [upper]; rfl, beginning, _, bounded, ?_⟩
  rw [top, first]
  rfl

end ComplexityMeter.Score
