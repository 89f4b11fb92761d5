import ComplexityMeter.Proofs.Config.Acceptance
import ComplexityMeter.Proofs.Score.Composition
import ComplexityMeter.Proofs.Score.Outcome
import ComplexityMeter.Score.Summary

/-!
# The shape of result trees

A result tree is no higher than the levels left and has no more nodes than the tree that was scored,
although a wrapper uses up a level without a result of its own and some rules reach two levels down.
What a guard has stopped has no parts.
-/

namespace ComplexityMeter.Score

open Syntax (Node Tree)

/-! ### Heights -/

namespace Result

variable {α : Type}

mutual

/-- The number of nodes on a longest way down from the root. -/
def height : Result α → Nat
  | ⟨_, _, _, _, parts⟩ => heightAll parts + 1

def heightAll : List (Result α) → Nat
  | [] => 0
  | r :: rest => max r.height (heightAll rest)

end

theorem height_eq (r : Result α) : r.height = heightAll r.parts + 1 := by
  obtain ⟨_, _, _, _, _⟩ := r
  simp only [height]

theorem heightAll_le_iff {rs : List (Result α)} {bound : Nat} :
    heightAll rs ≤ bound ↔ ∀ r ∈ rs, r.height ≤ bound := by
  induction rs with
  | nil => simp [heightAll]
  | cons r rest ih => rw [heightAll, Nat.max_le, ih, List.forall_mem_cons]

theorem depths_le_iff (bound : Nat) (pending : List (Result α × Nat)) :
    (∀ e ∈ preorderPending pending, e.2 ≤ bound)
      ↔ ∀ e ∈ pending, e.2 + e.1.height ≤ bound + 1 := by
  fun_induction preorderPending pending with
  | case1 => simp
  | case2 r depth rest below =>
    have parts : (∀ e ∈ atDepth (depth + 1) r.parts, e.2 + e.1.height ≤ bound + 1)
        ↔ ∀ p ∈ r.parts, depth + 1 + p.height ≤ bound + 1 := by
      simp [atDepth]
    rw [List.forall_mem_cons, below, List.forall_mem_append, parts, List.forall_mem_cons,
      r.height_eq, ← and_assoc]
    refine and_congr_left fun _ => ⟨fun reach => ?_, fun reach => ⟨?_, fun p hp => ?_⟩⟩
    · have parts : heightAll r.parts ≤ bound - depth := heightAll_le_iff.2 fun p hp => by
        have := reach.2 p hp
        omega
      have := reach.1
      omega
    · omega
    · have := heightAll_le_iff.1 (Nat.le_refl _) p hp
      omega

end Result

theorem foldl_max_le_iff {xs : List Nat} {start bound : Nat} :
    xs.foldl max start ≤ bound ↔ start ≤ bound ∧ ∀ x ∈ xs, x ≤ bound := by
  induction xs generalizing start with
  | nil => simp
  | cons x rest ih => rw [List.foldl_cons, ih, Nat.max_le, List.forall_mem_cons, and_assoc]

theorem height_summarize {α : Type} [Scalar α] (topCount : Int) (r : Result α) :
    (summarize topCount r).height = r.height := by
  have bounds (bound : Nat) : (summarize topCount r).height ≤ bound ↔ r.height ≤ bound := by
    rw [summarize, foldl_max_le_iff, List.forall_mem_map, Result.preorderDepths,
      Result.depths_le_iff]
    simp only [List.forall_mem_singleton]
    omega
  exact Nat.le_antisymm ((bounds _).2 (Nat.le_refl _)) ((bounds _).1 (Nat.le_refl _))

/-! ### What scoring gives -/

variable {α : Type} [Scalar α]

/-- A guard stopped at this node. -/
def Result.IsStopped (r : Result α) : Prop :=
  r.isTruncated = true ∨ r.isCircular = true

/-- The shape of a result of a node that is scored at a depth. -/
structure Shaped (ceiling : Ceiling) (depth : Int) (n : Node) (r : Result α) : Prop where
  height_le : ∀ bound, ceiling = .level bound → (r.height : Int) ≤ max 0 (bound - depth) + 1
  stopped : ∀ m ∈ r.preorder, m.IsStopped → m.parts = []
  base : ∀ m ∈ r.preorder, m.isTruncated = true → m.score = 1.0
  size_le : r.size ≤ n.size

theorem shaped_leaf (ceiling : Ceiling) (depth : Int) (n : Node) {r : Result α}
    (leaf : r.parts = []) (base : r.isTruncated = true → r.score = 1.0) :
    Shaped ceiling depth n r := by
  have alone : r.preorder = [r] := by rw [Result.preorder_eq, leaf]; rfl
  have height : r.height = 1 := by rw [Result.height_eq, leaf]; rfl
  have size : r.size = 1 := by rw [Result.size_eq, leaf]; rfl
  refine ⟨fun bound _ => ?_, ?_, ?_, ?_⟩
  · omega
  · simpa [alone] using fun _ => leaf
  · simpa [alone] using base
  · exact size ▸ n.size_pos

theorem sizeAll_le_of_forall₂ {ceiling : Ceiling} {depth : Int} {ns : List Node}
    {rs : List (Result α)} (h : List.Forall₂ (Shaped ceiling depth) ns rs) :
    Result.sizeAll rs ≤ Node.sizeAll ns := by
  induction h with
  | nil => exact Nat.le_refl _
  | cons shaped _ ih => exact Nat.add_le_add shaped.size_le ih

/-- The result that a recipe composes is one level higher than its highest part. -/
theorem shaped_recipe {ceiling : Ceiling} {depth : Int} {n : Node} {recipe : Recipe α Node}
    {scored : Recipe α (Result α)} (below : ceiling.isReached depth = false)
    (plan_eq : plan n = .recipe recipe)
    (matched : recipe.Matches (Shaped ceiling (depth + 1)) scored) :
    Shaped ceiling depth n (composed n (.recipe scored)) := by
  have each : ∀ r ∈ scored.parts, ∃ p, Shaped ceiling (depth + 1) p r := fun r hr => by
    obtain ⟨p, _, shaped⟩ := matched.exists_part hr
    exact ⟨p, shaped⟩
  have unstopped : ¬ (composed n (.recipe scored)).IsStopped := by
    have none {name : String} (guard : name = "truncated" ∨ name = "circular") :
        scored.facts.get? name = Option.none :=
      matched.facts_eq ▸ facts_of_plan plan_eq guard
    simp [Result.IsStopped, Result.isTruncated, Result.isCircular, Result.hasFact, composed,
      resultOf, none]
  have nodes : ∀ m ∈ (composed n (.recipe scored)).preorder,
      m = composed n (.recipe scored) ∨ ∃ r ∈ scored.parts, m ∈ r.preorder := by
    intro m hm
    rw [Result.preorder_eq] at hm
    simpa [composed, resultOf] using hm
  refine ⟨fun bound level => ?_, fun m hm stop => ?_, fun m hm cut => ?_, ?_⟩
  · have room : depth < bound := by
      subst level
      simpa [Ceiling.isReached] using below
    have parts : Result.heightAll scored.parts ≤ (bound - depth).toNat := by
      refine Result.heightAll_le_iff.2 fun r hr => ?_
      obtain ⟨p, shaped⟩ := each r hr
      have := shaped.height_le bound level
      omega
    rw [Result.height_eq]
    change ((Result.heightAll scored.parts + 1 : Nat) : Int) ≤ _
    omega
  · rcases nodes m hm with rfl | ⟨r, hr, hm⟩
    · exact absurd stop unstopped
    · obtain ⟨p, shaped⟩ := each r hr
      exact shaped.stopped m hm stop
  · rcases nodes m hm with rfl | ⟨r, hr, hm⟩
    · exact absurd (.inl cut) unstopped
    · obtain ⟨p, shaped⟩ := each r hr
      exact shaped.base m hm cut
  · have parts := sizeAll_le_of_forall₂ matched.parts
    have room := sizeAll_plan_lt (α := α) n
    rw [plan_eq] at room
    change Node.sizeAll recipe.parts < n.size at room
    rw [Result.size_eq]
    change Result.sizeAll scored.parts + 1 ≤ _
    omega

/-- The result of what a node wraps, one level deeper, stands for the node. -/
theorem Shaped.wrapped {ceiling : Ceiling} {depth : Int} {n p : Node} {r : Result α}
    (shaped : Shaped ceiling (depth + 1) p r) (inside : p.size < n.size) :
    Shaped ceiling depth n r where
  height_le bound level := by
    have := shaped.height_le bound level
    omega
  stopped := shaped.stopped
  base := shaped.base
  size_le := Nat.le_trans shaped.size_le (Nat.le_of_lt inside)

theorem inductive_shaped (ceiling : Ceiling) : Inductive (α := α) ceiling (Shaped ceiling) where
  cutOff depth n _ := shaped_leaf ceiling depth n rfl fun _ => rfl
  repeated depth n _ := by
    refine shaped_leaf ceiling depth n rfl fun cut => ?_
    cases cut
  composed depth n scored below matched := by
    have smaller : ∀ p ∈ (plan (α := α) n).parts, p.size < n.size :=
      fun _ => size_lt_of_mem_plan
    cases h : plan (α := α) n with
    | recipe recipe =>
      rw [h] at matched
      cases matched with
      | recipe matched => exact shaped_recipe below h matched
    | inner p =>
      rw [h] at matched smaller
      cases matched with
      | inner shaped => exact shaped.wrapped (smaller p List.mem_cons_self)

/-! ### Files -/

/-- A file is one level higher than its highest statement. -/
theorem height_scoreFile_le (bound : Int) (t : Tree) :
    ((scoreFile (α := α) (.level bound) t).height : Int) ≤ max 0 bound + 2 := by
  have statements : Result.heightAll (scoreFile (α := α) (.level bound) t).parts
      ≤ (max 0 bound + 1).toNat := by
    refine Result.heightAll_le_iff.2 fun r hr => ?_
    obtain ⟨n, _, shaped⟩ := (inductive_shaped (.level bound)).exists_statement t hr
    have := shaped.height_le bound rfl
    omega
  rw [Result.height_eq]
  omega

variable (α) in
/-- Whatever has been scored before, a result is at most as high as the levels left allow and has no
more nodes than the tree that was scored; what a guard has stopped in it is a leaf, and scores the
base score where it was cut off. A file is therefore at most two levels higher than the bound of an
accepted configuration, where that is whole: a bound of 2.5 is passed at the depth three. -/
theorem results_shaped :
    (∀ (c : Context) (n : Node), Shaped c.ceiling c.depth n (c.score (α := α) n).1)
    ∧ ∀ {fields : Entries Datum} {weights : Option Config.WeightsGiven} {config : Config}
        {limit : Int}, Config.ofEntries fields weights = .ok config →
        config.numberOf .maxDepth = .int limit → ∀ (t : Tree) (topCount : Int),
        ((summarize topCount (scoreFile (α := α) config.settings.ceiling t)).height : Int)
          ≤ limit + 2 := by
  refine ⟨fun c n => (inductive_shaped c.ceiling).score n rfl, ?_⟩
  intro fields weights config limit accepted number t topCount
  have positive := Config.one_le_maxDepth accepted number
  have file := height_scoreFile_le (α := α) limit t
  rw [height_summarize, Config.ceiling_settings number]
  omega

/-- A call is cut off below its statement when only one level is scored, and stands at the height
that the bound allows. -/
theorem results_shaped_oneLevel :
    let given : Entries Datum := [("max_depth", .number (.int 1))]
    let config : Config := ⟨Config.valueIn given, Config.default.weights⟩
    Config.ofEntries given none = .ok config
    ∧ config.numberOf .maxDepth = .int 1
    ∧ (summarize 5 (scoreFile (α := Number) config.settings.ceiling conditionThenSum)).height = 3
    ∧ ((summarize 5 (scoreFile (α := Number) config.settings.ceiling conditionThenSum)).height : Int)
        ≤ 1 + 2 := by
  intro given config
  have accepted : Config.ofEntries given none = .ok config := rfl
  have number : config.numberOf .maxDepth = .int 1 := rfl
  have height : (summarize 5 (scoreFile (α := Number) (.level 1) conditionThenSum)).height = 3 := by
    decide +kernel
  exact ⟨accepted, number, height, (results_shaped Number).2 accepted number conditionThenSum 5⟩

end ComplexityMeter.Score
