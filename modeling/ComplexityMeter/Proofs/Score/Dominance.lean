import ComplexityMeter.Proofs.Score.Monotone
import ComplexityMeter.Proofs.Score.Outcome

/-!
# Scores of nodes over scores of their parts

Every scored node carries the base score on top of what its parts score. A rule may make parts
count for more, but only the tests of a switch count for less, so no node but a switch can be ranked
below one of its parts. A file counts its statements by their weights, of which none is below 0.8.
-/

namespace ComplexityMeter.Score

open Syntax (Node Tree)

variable {β γ : Type}

/-! ### How much of the parts counts -/

/-- The least share of what parts score that a node of a kind is sure to score. -/
def share (kind : String) : ℚ :=
  if kind = "switch_statement" then 0.3 else 1

theorem share_nonneg (kind : String) : 0 ≤ share kind := by
  unfold share
  split <;> norm_num

theorem share_le_one (kind : String) : share kind ≤ 1 := by
  unfold share
  split <;> norm_num

/-- A step that counts at least a share of what its parts score. -/
def Term.Counts (least : ℚ) : Term ℚ β → Prop
  | .scaled factor _ => least ≤ factor
  | .sum _ | .plus _ | .times _ => True

/-- All steps of a plan count at least a share. -/
def Plan.Counts (least : ℚ) : Plan ℚ β → Prop
  | .recipe r => ∀ t ∈ r.terms, t.Counts least
  | .inner _ => True

theorem counts_caseTerms (clause : Node) : ∀ t ∈ caseTerms (α := ℚ) clause, t.Counts 0.3 := by
  rw [caseTerms]
  cases clause.child? "value" with
  | none => simp [Term.Counts]
  | some test => simp [Term.Counts]

theorem counts_switchRecipe (n : Node) :
    ∀ t ∈ (switchRecipe (α := ℚ) n).terms, t.Counts 0.3 := by
  simp only [switchRecipe, List.cons_append, List.forall_mem_cons, List.forall_mem_append]
  refine ⟨trivial, fun t ht => ?_, trivial, by simp⟩
  obtain ⟨clause, _, ht⟩ := List.mem_flatMap.1 ht
  exact counts_caseTerms clause t ht

theorem counts_handlerTerms (n : Node) : ∀ t ∈ handlerTerms (α := ℚ) n, t.Counts 1 := by
  rw [handlerTerms]
  cases n.child? "handler" with
  | none => simp
  | some handler => by_cases h : bindsCaught n <;> simp [h, Term.Counts]

theorem counts_finalizerTerms (n : Node) : ∀ t ∈ finalizerTerms (α := ℚ) n, t.Counts 1 := by
  rw [finalizerTerms]
  cases n.child? "finalizer" with
  | none => simp
  | some finalizer => simp [Term.Counts]

/-- Every rule counts the share of its kind. -/
theorem counts_plan (n : Node) : (plan (α := ℚ) n).Counts (share n.kind) := by
  by_cases switch : n.kind = "switch_statement"
  · have form : Form.ofKind n.kind = .switch := by rw [switch]; rfl
    rw [plan, form, share, if_pos switch]
    exact counts_switchRecipe n
  · rw [plan, share, if_neg switch]
    cases form : Form.ofKind n.kind with
    | switch =>
      have listed := Form.mem_kinds_of_ofKind form (by decide)
      exact absurd (List.mem_singleton.1 listed) switch
    | call => simpa [planOfForm, Plan.Counts, callRecipe, Term.Counts] using one_le_argumentFactor _
    | declaration =>
      by_cases mutable : isMutable n <;>
        simp [planOfForm, Plan.Counts, declarationRecipe, Term.Counts, mutable]
    | guarded =>
      simp only [planOfForm, Plan.Counts, guardedRecipe, List.cons_append, List.forall_mem_cons,
        List.forall_mem_append]
      exact ⟨trivial, counts_handlerTerms n, counts_finalizerTerms n⟩
    | transparent =>
      dsimp only [planOfForm]
      cases n.children <;> simp [Plan.Counts]
    | _ =>
      simp [planOfForm, Plan.Counts, partsOnly, binaryRecipe, unaryRecipe, objectRecipe,
        arrayRecipe, classRecipe, conditionalRecipe, loopRecipe, blockRecipe, Term.Counts]

/-! ### Steps over results -/

theorem Term.Matches.raises {R : β → γ → Prop} {t : Term ℚ β} {u : Term ℚ γ} (h : t.Matches R u)
    (raises : t.Raises) : u.Raises := by
  cases h <;> exact raises

theorem Term.Matches.counts {R : β → γ → Prop} {t : Term ℚ β} {u : Term ℚ γ} (h : t.Matches R u)
    {least : ℚ} (counts : t.Counts least) : u.Counts least := by
  cases h <;> exact counts

theorem Recipe.Matches.forall_terms {R : β → γ → Prop} {r : Recipe ℚ β} {s : Recipe ℚ γ}
    (h : r.Matches R s) {P : Term ℚ β → Prop} {Q : Term ℚ γ → Prop} (all : ∀ t ∈ r.terms, P t)
    (each : ∀ {t u}, t.Matches R u → P t → Q u) : ∀ u ∈ s.terms, Q u := by
  intro u hu
  obtain ⟨t, ht, matched⟩ := exists_of_mem_right h.terms hu
  exact each matched (all t ht)

theorem le_scoreSum {rs : List (Result ℚ)} (nonneg : ∀ r ∈ rs, 0 ≤ r.score) {r : Result ℚ}
    (hr : r ∈ rs) : r.score ≤ scoreSum rs := by
  rw [scoreSum, Scalar.sum_rat]
  exact List.single_le_sum (by simpa using nonneg) _ (List.mem_map_of_mem hr)

section

variable {least : ℚ}

theorem Term.le_apply (whole : least ≤ 1) {t : Term ℚ (Result ℚ)} (raises : t.Raises)
    (counts : t.Counts least) (nonneg : ∀ r ∈ t.parts, 0 ≤ r.score) {x : ℚ} (hx : 0 ≤ x) :
    x + least * scoreSum t.parts ≤ Term.apply x (t.map Result.score) := by
  have sum := scoreSum_nonneg nonneg
  cases t with
  | sum rs => exact add_le_add_right (mul_le_of_le_one_left sum whole) x
  | scaled factor rs =>
    refine add_le_add_right ?_ x
    rw [mul_comm]
    exact mul_le_mul_of_nonneg_left counts sum
  | plus weight =>
    have none : scoreSum (Term.plus (β := Result ℚ) weight).parts = 0 := rfl
    rw [none, mul_zero, add_zero]
    exact le_add_of_nonneg_right raises
  | times factor =>
    have none : scoreSum (Term.times (β := Result ℚ) factor).parts = 0 := rfl
    rw [none, mul_zero, add_zero]
    exact le_mul_of_one_le_right hx raises

/-- The steps of a recipe add at least the share of what all parts score. -/
theorem le_foldl_apply (positive : 0 ≤ least) (whole : least ≤ 1)
    {terms : List (Term ℚ (Result ℚ))} (raises : ∀ t ∈ terms, t.Raises)
    (counts : ∀ t ∈ terms, t.Counts least)
    (nonneg : ∀ r ∈ terms.flatMap Term.parts, 0 ≤ r.score) {x : ℚ} (hx : 0 ≤ x) :
    x + least * scoreSum (terms.flatMap Term.parts)
      ≤ (terms.map (Term.map Result.score)).foldl Term.apply x := by
  induction terms generalizing x with
  | nil => exact (add_zero x ▸ congrArg (x + ·) (mul_zero least)).le
  | cons t rest ih =>
    rw [List.flatMap_cons, List.forall_mem_append] at nonneg
    have first := Term.le_apply whole (raises t List.mem_cons_self)
      (counts t List.mem_cons_self) nonneg.1 hx
    have reached : 0 ≤ Term.apply x (t.map Result.score) :=
      (add_nonneg hx (mul_nonneg positive (scoreSum_nonneg nonneg.1))).trans first
    have others := ih (fun u hu => raises u (List.mem_cons_of_mem _ hu))
      (fun u hu => counts u (List.mem_cons_of_mem _ hu)) nonneg.2 reached
    calc x + least * scoreSum ((t :: rest).flatMap Term.parts)
        = x + least * scoreSum t.parts + least * scoreSum (rest.flatMap Term.parts) := by
          rw [List.flatMap_cons, scoreSum_append]
          ring
      _ ≤ Term.apply x (t.map Result.score) + least * scoreSum (rest.flatMap Term.parts) :=
          add_le_add_left first _
      _ ≤ _ := others

end

/-! ### Nodes -/

/-- A node scores the base score and at least its share of what its parts score, each of which has
the base score itself. -/
structure Result.Covers (r : Result ℚ) : Prop where
  parts : ∀ p ∈ r.parts, 1 ≤ p.score
  share_le : 1 + share r.kind * scoreSum r.parts ≤ r.score

theorem Result.Covers.nonneg_parts {r : Result ℚ} (h : r.Covers) : ∀ p ∈ r.parts, 0 ≤ p.score :=
  fun p hp => zero_le_one.trans (h.parts p hp)

theorem Result.Covers.one_le {r : Result ℚ} (h : r.Covers) : 1 ≤ r.score :=
  le_of_add_le_of_nonneg_left h.share_le
    (mul_nonneg (share_nonneg r.kind) (scoreSum_nonneg h.nonneg_parts))

theorem Result.mem_preorder_self {α : Type} (r : Result α) : r ∈ r.preorder := by
  rw [Result.preorder_eq]
  exact List.mem_cons_self

theorem covers_leaf {r : Result ℚ} (leaf : r.parts = []) (h : 1 ≤ r.score) : r.Covers := by
  refine ⟨by simp [leaf], ?_⟩
  have none : scoreSum r.parts = 0 := by rw [leaf]; rfl
  rw [none, mul_zero, add_zero]
  exact h

theorem one_le_estimate (n : Node) : 1 ≤ estimate (α := ℚ) n := by
  have repeated : ∀ kind, 0 ≤ ((repeatedWeights (α := ℚ)).get? kind).getD 0.0 := by
    intro kind
    simp only [repeatedWeights, Entries.get?, List.lookup_cons, List.lookup_nil]
    repeat' split
    all_goals norm_num
  unfold estimate
  split
  · have := operatorWeight_nonneg (operator n)
    linarith
  · have : (0 : ℚ) ≤ 0.2 * (arguments n).length := by positivity
    linarith
  · have := repeated n.kind
    linarith

theorem covers_recipe {n : Node} {r : Recipe ℚ (Result ℚ)} (raises : ∀ t ∈ r.terms, t.Raises)
    (counts : ∀ t ∈ r.terms, t.Counts (share n.kind)) (parts : ∀ p ∈ r.parts, 1 ≤ p.score) :
    (composed n (.recipe r)).Covers where
  parts := parts
  share_le := by
    have base : (1 : ℚ) = 1.0 := by norm_num
    have nonneg : ∀ p ∈ r.parts, 0 ≤ p.score := fun p hp => zero_le_one.trans (parts p hp)
    have reached := le_foldl_apply (share_nonneg n.kind) (share_le_one n.kind) raises counts nonneg
      (zero_le_one.trans_eq base)
    exact (congrArg (· + share n.kind * scoreSum r.parts) base).trans_le reached

theorem inductive_covers (ceiling : Ceiling) :
    Inductive ceiling fun _ _ r => ∀ m ∈ r.preorder, Result.Covers m where
  cutOff depth n _ := by
    have base : (1 : ℚ) ≤ (truncated n).score := by norm_num [truncated, resultOf]
    simpa [Result.preorder_eq, truncated, resultOf] using covers_leaf rfl base
  repeated depth n _ := by
    have base : (1 : ℚ) ≤ (circular n).score := one_le_estimate n
    simpa [Result.preorder_eq, circular, resultOf] using covers_leaf rfl base
  composed depth n scored _ matched := by
    have raises := raises_plan n
    have counts := counts_plan n
    cases h : plan (α := ℚ) n with
    | inner p =>
      rw [h] at matched
      cases matched with
      | inner part => exact part
    | recipe recipe =>
      rw [h] at matched raises counts
      cases matched with
      | @recipe _ r matched =>
        have parts : ∀ p ∈ r.parts, ∀ m ∈ p.preorder, Result.Covers m := fun p hp => by
          obtain ⟨_, _, covers⟩ := matched.exists_part hp
          exact covers
        rw [Result.preorder_eq, List.forall_mem_cons]
        refine ⟨covers_recipe (matched.forall_terms raises fun step => step.raises)
          (matched.forall_terms counts fun step => step.counts)
          fun p hp => (parts p hp p p.mem_preorder_self).one_le, fun m hm => ?_⟩
        obtain ⟨p, hp, hm⟩ := List.mem_flatMap.1 hm
        exact parts p hp m hm

/-! ### Files -/

theorem le_declarationWeight (n : Node) : 0.8 ≤ declarationWeight (α := ℚ) n := by
  have some (weight : ℚ) (h : 0 ≤ weight) (count : Nat) : 0 ≤ weight * count :=
    mul_nonneg h count.cast_nonneg
  have member := some 0.1 (by norm_num) (members n).length
  have signature := some 0.05 (by norm_num) (members n).length
  have parameter := some 0.05 (by norm_num) (parameterNodes n).length
  unfold declarationWeight
  dsimp only
  split_ifs <;> linarith

theorem le_statementWeight (statement : Node) : 0.8 ≤ statementWeight (α := ℚ) statement := by
  rw [statementWeight]
  cases weighed? statement with
  | none => norm_num
  | some n => exact le_declarationWeight n

/-- Weighted statements add at least the least weight's share of what they score. -/
theorem le_sum_weighted {statements : List Node} {results : List (Result ℚ)}
    (h : List.Forall₂ (fun _ r => 0 ≤ r.score) statements results) :
    0.8 * scoreSum results ≤ (((results.map Result.score).zip
      (statements.map statementWeight)).map fun pair => pair.1 * pair.2).sum := by
  induction h with
  | nil => exact (mul_zero _).le
  | @cons statement r statements results positive _ ih =>
    have first : 0.8 * r.score ≤ r.score * statementWeight statement := by
      rw [mul_comm]
      exact mul_le_mul_of_nonneg_left (le_statementWeight statement) positive
    have split : scoreSum (r :: results) = r.score + scoreSum results := by
      simp [scoreSum, Scalar.sum_rat]
    rw [split, mul_add]
    exact add_le_add first ih

/-- Whatever identities its nodes have, in the result of a file every node scores at least one. A
node below the root that is no switch scores one more than its parts together, so none of them ranks
as high; a switch scores one more than 0.3 times its parts, and the file itself than 0.8 times its
statements. -/
theorem scores_cover_parts (ceiling : Ceiling) (t : Tree) :
    let file := scoreFile (α := ℚ) ceiling t
    1 ≤ file.score
    ∧ 1 + 0.8 * scoreSum file.parts ≤ file.score
    ∧ ∀ statement ∈ file.parts, ∀ r ∈ statement.preorder,
        1 ≤ r.score
        ∧ (r.kind ≠ "switch_statement" →
            1 + scoreSum r.parts ≤ r.score ∧ ∀ p ∈ r.parts, p.score < r.score)
        ∧ (r.kind = "switch_statement" → 1 + 0.3 * scoreSum r.parts ≤ r.score) := by
  intro file
  have covers : ∀ statement ∈ file.parts, ∀ r ∈ statement.preorder, Result.Covers r := by
    intro statement hs
    obtain ⟨_, _, covers⟩ := (inductive_covers ceiling).exists_statement t hs
    exact covers
  have score : file.score = 1 + _ := weightedTotal_eq _
  have weighted := le_sum_weighted (((inductive_covers ceiling).statementResults t).imp
    fun n r covers => zero_le_one.trans (covers r r.mem_preorder_self).one_le)
  have statements : 0 ≤ scoreSum file.parts :=
    scoreSum_nonneg fun r hr => zero_le_one.trans (covers r hr r r.mem_preorder_self).one_le
  have whole : 1 + 0.8 * scoreSum file.parts ≤ file.score :=
    score ▸ add_le_add_right weighted 1
  refine ⟨by linarith, whole, fun statement hs r hr => ?_⟩
  have cover := covers statement hs r hr
  refine ⟨cover.one_le, fun other => ?_, fun switch => ?_⟩
  · have sum : 1 + scoreSum r.parts ≤ r.score := by
      simpa [share, other] using cover.share_le
    refine ⟨sum, fun p hp => ?_⟩
    have := le_scoreSum cover.nonneg_parts hp
    linarith
  · simpa [share, switch] using cover.share_le

/-- A switch over an array that its only case compares with. -/
def arrayTest : Tree :=
  let element (identity : Nat) := sketch "number" none identity []
  let test := sketch "array" (some "value") 1 [element 2, element 3, element 4, element 5]
  let only := sketch "switch_case" none 6 [test]
  ⟨sketch "program" none 0
    [sketch "switch_statement" none 7
      [sketch "identifier" (some "value") 8 [], sketch "switch_body" (some "body") 9 [only]]],
    "array.ts", .typescript⟩

/-- A switch can be ranked below the test of a case, which is no switch and is not. -/
theorem scores_cover_parts_arrayTest :
    let file := scoreFile (α := ℚ) (.level 5) arrayTest
    ∃ statement ∈ file.parts, statement.kind = "switch_statement"
      ∧ 1 + 0.3 * scoreSum statement.parts ≤ statement.score
      ∧ ∃ p ∈ statement.parts, statement.score < p.score ∧ p.kind ≠ "switch_statement"
        ∧ p.parts ≠ [] ∧ ∀ element ∈ p.parts, element.score < p.score := by
  intro file
  obtain ⟨statement, hs, switch, p, hp, higher, other, nonempty⟩ : ∃ statement ∈ file.parts,
      statement.kind = "switch_statement" ∧ ∃ p ∈ statement.parts,
        statement.score < p.score ∧ p.kind ≠ "switch_statement" ∧ p.parts.isEmpty = false := by
    decide +kernel
  have below : p ∈ statement.preorder := by
    rw [Result.preorder_eq]
    exact List.mem_cons_of_mem _ (List.mem_flatMap.2 ⟨p, hp, p.mem_preorder_self⟩)
  have nodes := (scores_cover_parts (.level 5) arrayTest).2.2 statement hs
  refine ⟨statement, hs, switch, (nodes statement statement.mem_preorder_self).2.2 switch, p, hp,
    higher, other, ?_, ((nodes p below).2.1 other).2⟩
  simpa using nonempty

end ComplexityMeter.Score
