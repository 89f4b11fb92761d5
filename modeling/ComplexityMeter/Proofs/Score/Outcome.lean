import ComplexityMeter.Proofs.Runs
import ComplexityMeter.Proofs.Score.Growth
import ComplexityMeter.Score.File

/-!
# What scoring can give

Whatever identities the nodes of a tree have and whatever has been scored before, a node is cut
off, met again, or composed by its plan from results of its parts that were scored one level deeper.
A property of results that these three outcomes pass on therefore holds of every result.
-/

namespace ComplexityMeter.Score

open Syntax (Node Tree)

variable {α β γ σ : Type}

/-! ### Plans with other parts -/

/-- The same step over other parts, each related to the part in its place. -/
inductive Term.Matches (R : β → γ → Prop) : Term α β → Term α γ → Prop
  | sum {ps : List β} {qs : List γ} (parts : List.Forall₂ R ps qs) :
      Matches R (.sum ps) (.sum qs)
  | scaled {factor : α} {ps : List β} {qs : List γ} (parts : List.Forall₂ R ps qs) :
      Matches R (.scaled factor ps) (.scaled factor qs)
  | plus (weight : α) : Matches R (.plus weight) (.plus weight)
  | times (factor : α) : Matches R (.times factor) (.times factor)

/-- The same recipe over other parts. -/
structure Recipe.Matches (R : β → γ → Prop) (r : Recipe α β) (s : Recipe α γ) : Prop where
  terms : List.Forall₂ (Term.Matches R) r.terms s.terms
  facts_eq : s.facts = r.facts

/-- The same plan over other parts. -/
inductive Plan.Matches (R : β → γ → Prop) : Plan α β → Plan α γ → Prop
  | recipe {r : Recipe α β} {s : Recipe α γ} (h : r.Matches R s) : Matches R (.recipe r) (.recipe s)
  | inner {b : β} {c : γ} (h : R b c) : Matches R (.inner b) (.inner c)

section

variable {R : β → γ → Prop}

theorem Term.Matches.parts {t : Term α β} {u : Term α γ} (h : t.Matches R u) :
    List.Forall₂ R t.parts u.parts := by
  cases h with
  | sum parts => exact parts
  | scaled parts => exact parts
  | plus weight => exact .nil
  | times factor => exact .nil

theorem Recipe.Matches.parts {r : Recipe α β} {s : Recipe α γ} (h : r.Matches R s) :
    List.Forall₂ R r.parts s.parts :=
  List.rel_flatMap h.terms fun _ _ => Term.Matches.parts

theorem Recipe.Matches.exists_part {r : Recipe α β} {s : Recipe α γ} (h : r.Matches R s) {c : γ}
    (hc : c ∈ s.parts) : ∃ b ∈ r.parts, R b c :=
  exists_of_mem_right h.parts hc

end

/-! ### Treatments that keep an invariant -/

/-- In every state of an invariant, a treatment gives a value with a property and keeps the
invariant. -/
def Gives (I : σ → Prop) (f : StateM σ γ) (P : γ → Prop) : Prop :=
  ∀ s, I s → P (f.run s).1 ∧ I (f.run s).2

namespace Gives

variable {I : σ → Prop} {R : β → γ → Prop} {f : β → StateM σ γ}

theorem mapM {bs : List β} (h : ∀ b ∈ bs, Gives I (f b) (R b)) :
    Gives I (bs.mapM f) (List.Forall₂ R bs) := by
  induction bs with
  | nil =>
    intro s hs
    exact ⟨.nil, hs⟩
  | cons b rest ih =>
    intro s hs
    obtain ⟨first, kept⟩ := h b List.mem_cons_self s hs
    obtain ⟨others, kept⟩ := ih (fun d hd => h d (List.mem_cons_of_mem b hd)) _ kept
    rw [List.mapM_cons]
    exact ⟨.cons first others, kept⟩

theorem term {t : Term α β} (h : ∀ b ∈ t.parts, Gives I (f b) (R b)) :
    Gives I (t.mapM f) (t.Matches R) := by
  intro s hs
  cases t with
  | sum ps =>
    obtain ⟨parts, kept⟩ := mapM h s hs
    exact ⟨.sum parts, kept⟩
  | scaled factor ps =>
    obtain ⟨parts, kept⟩ := mapM h s hs
    exact ⟨.scaled parts, kept⟩
  | plus weight => exact ⟨.plus weight, hs⟩
  | times factor => exact ⟨.times factor, hs⟩

theorem plan {p : Plan α β} (h : ∀ b ∈ p.parts, Gives I (f b) (R b)) :
    Gives I (p.mapM f) (p.Matches R) := by
  intro s hs
  cases p with
  | recipe r =>
    have terms : ∀ t ∈ r.terms, Gives I (t.mapM f) (t.Matches R) :=
      fun t ht => term fun b hb => h b (List.mem_flatMap.2 ⟨t, ht, hb⟩)
    obtain ⟨matched, kept⟩ := mapM terms s hs
    exact ⟨.recipe ⟨matched, rfl⟩, kept⟩
  | inner b =>
    obtain ⟨part, kept⟩ := h b List.mem_cons_self s hs
    exact ⟨.inner part, kept⟩

end Gives

/-! ### The outcomes of scoring -/

variable [Scalar α] {ceiling : Ceiling} {motive : Int → Node → Result α → Prop}

/-- The scoring stands at a depth below a ceiling. -/
def StandsAt (ceiling : Ceiling) (depth : Int) (c : Context) : Prop :=
  c.ceiling = ceiling ∧ c.depth = depth

theorem StandsAt.isCutOff_eq {depth : Int} {c : Context} (h : StandsAt ceiling depth c) :
    c.isCutOff = ceiling.isReached depth := by
  rw [Context.isCutOff, h.1, h.2]

/-- The three outcomes of scoring a node pass a property of results on. -/
structure Inductive (ceiling : Ceiling) (motive : Int → Node → Result α → Prop) : Prop where
  cutOff : ∀ depth n, ceiling.isReached depth = true → motive depth n (truncated n)
  repeated : ∀ depth n, ceiling.isReached depth = false → motive depth n (circular n)
  composed : ∀ depth n scored, ceiling.isReached depth = false →
    (plan n).Matches (motive (depth + 1)) scored → motive depth n (composed n scored)

namespace Inductive

/-- Scoring a node gives a result with a property that the three outcomes pass on. -/
theorem gives_visit (h : Inductive ceiling motive) (n : Node) (depth : Int) :
    Gives (StandsAt ceiling depth) (visit n) (motive depth n) := by
  induction n using part_induction α generalizing depth with
  | step n ih =>
    intro c stands
    have grown := grows_score (α := α) n c
    refine ⟨?_, grown.ceiling_eq.trans stands.1, grown.depth_eq.trans stands.2⟩
    change motive depth n (c.score n).1
    cases within : c.isCutOff with
    | true =>
      rw [Context.score_of_cutOff within]
      exact h.cutOff depth n (stands.isCutOff_eq ▸ within)
    | false =>
      have below : ceiling.isReached depth = false := stands.isCutOff_eq ▸ within
      by_cases known : n.identity ∈ c.visited
      · rw [Context.score_of_visited within known]
        exact h.repeated depth n below
      · rw [Context.score_of_new within known]
        have entered : StandsAt ceiling (depth + 1) (c.enter n) :=
          ⟨stands.1, congrArg (· + 1) stands.2⟩
        have parts := Gives.plan (fun p hp => ih p hp (depth + 1)) (c.enter n) entered
        exact h.composed depth n _ below parts.1

theorem score (h : Inductive ceiling motive) (n : Node) {c : Context} (hc : c.ceiling = ceiling) :
    motive c.depth n (c.score n).1 :=
  (h.gives_visit n c.depth c ⟨hc, rfl⟩).1

theorem statementResults (h : Inductive ceiling motive) (t : Tree) :
    List.Forall₂ (motive 0) t.root.children (statementResults ceiling t) := by
  have each : ∀ n ∈ t.root.children, Gives (StandsAt ceiling 0) (visit n) (motive 0 n) :=
    fun n _ => h.gives_visit n 0
  exact (Gives.mapM each (fileContext ceiling t) ⟨rfl, rfl⟩).1

/-- Every result of a file has the property for one of its statements. -/
theorem exists_statement (h : Inductive ceiling motive) (t : Tree) {r : Result α}
    (hr : r ∈ (scoreFile ceiling t).parts) : ∃ n ∈ t.root.children, motive 0 n r :=
  exists_of_mem_right (h.statementResults t) hr

end Inductive

end ComplexityMeter.Score
