import ComplexityMeter.Score.Visit

/-!
# Treating the parts of a plan

The parts of a plan are treated from the first to the last, each in the state that the ones before
it left. Two treatments that agree on every single part agree on the whole plan; what they agree on
may relate their states to the parts that are still to come.
-/

namespace ComplexityMeter.Score

variable {α β γ δ σ τ : Type}

/-! ### What treating gives -/

section

variable {m : Type → Type} [Monad m] [LawfulMonad m] (f : β → m γ)

theorem Term.parts_mapM (t : Term α β) : Term.parts <$> t.mapM f = t.parts.mapM f := by
  cases t <;> simp [Term.mapM, Term.parts]

theorem Recipe.parts_mapM (r : Recipe α β) : Recipe.parts <$> r.mapM f = r.parts.mapM f := by
  have terms (ts : List (Term α β)) : List.flatMap Term.parts <$> ts.mapM (Term.mapM f)
      = (ts.flatMap Term.parts).mapM f := by
    induction ts with
    | nil => simp
    | cons t rest ih =>
      rw [List.mapM_cons, List.flatMap_cons, List.mapM_append, ← Term.parts_mapM, ← ih]
      simp
  simpa [Recipe.mapM, Recipe.parts] using terms r.terms

theorem Plan.parts_mapM (p : Plan α β) : Plan.parts <$> p.mapM f = p.parts.mapM f := by
  cases p with
  | recipe r => simpa [Plan.mapM, Plan.parts] using r.parts_mapM f
  | inner b => simp [Plan.mapM, Plan.parts]

end

/-! ### Treatments that agree -/

/-- Two treatments of some parts agree: whenever a relation of the parts to come and of the two
states holds, they give the same value, and the relation holds for the parts after theirs. -/
def Agree (I : List β → σ → τ → Prop) (parts : List β) (f : StateM σ γ) (g : StateM τ γ) : Prop :=
  ∀ rest s t, I (parts ++ rest) s t →
    (f.run s).1 = (g.run t).1 ∧ I rest (f.run s).2 (g.run t).2

namespace Agree

variable {I : List β → σ → τ → Prop}

theorem mapM {ds : List δ} {parts : δ → List β} {f : δ → StateM σ γ} {g : δ → StateM τ γ}
    (h : ∀ d ∈ ds, Agree I (parts d) (f d) (g d)) :
    Agree I (ds.flatMap parts) (ds.mapM f) (ds.mapM g) := by
  induction ds with
  | nil =>
    intro rest s t related
    exact ⟨rfl, related⟩
  | cons d ds ih =>
    intro rest s t related
    rw [List.flatMap_cons, List.append_assoc] at related
    obtain ⟨first, related⟩ := h d List.mem_cons_self _ s t related
    obtain ⟨others, related⟩ := ih (fun e he => h e (List.mem_cons_of_mem d he)) rest _ _ related
    rw [List.mapM_cons, List.mapM_cons]
    exact ⟨congr (congrArg List.cons first) others, related⟩

variable {f : β → StateM σ γ} {g : β → StateM τ γ}

theorem list {ps : List β} (h : ∀ b ∈ ps, Agree I [b] (f b) (g b)) :
    Agree I ps (ps.mapM f) (ps.mapM g) := by
  have whole := mapM h
  rwa [List.flatMap_singleton'] at whole

theorem term {t : Term α β} (h : ∀ b ∈ t.parts, Agree I [b] (f b) (g b)) :
    Agree I t.parts (t.mapM f) (t.mapM g) := by
  intro rest s s' related
  cases t with
  | sum ps =>
    obtain ⟨same, related⟩ := list h rest s s' related
    exact ⟨congrArg Term.sum same, related⟩
  | scaled factor ps =>
    obtain ⟨same, related⟩ := list h rest s s' related
    exact ⟨congrArg (Term.scaled factor) same, related⟩
  | plus weight => exact ⟨rfl, related⟩
  | times factor => exact ⟨rfl, related⟩

theorem plan {p : Plan α β} (h : ∀ b ∈ p.parts, Agree I [b] (f b) (g b)) :
    Agree I p.parts (p.mapM f) (p.mapM g) := by
  intro rest s t related
  cases p with
  | recipe r =>
    have terms : ∀ term ∈ r.terms, Agree I term.parts (term.mapM f) (term.mapM g) :=
      fun term ht => .term fun b hb => h b (List.mem_flatMap.2 ⟨term, ht, hb⟩)
    obtain ⟨same, related⟩ := mapM terms rest s t related
    exact ⟨congrArg (fun terms => Plan.recipe ⟨terms, r.facts⟩) same, related⟩
  | inner b =>
    obtain ⟨same, related⟩ := h b List.mem_cons_self rest s t related
    exact ⟨congrArg Plan.inner same, related⟩

/-- The whole of a plan, with no parts to come after it. -/
theorem plan_run {p : Plan α β} (h : ∀ b ∈ p.parts, Agree I [b] (f b) (g b)) {s : σ} {t : τ}
    (related : I p.parts s t) :
    ((p.mapM f).run s).1 = ((p.mapM g).run t).1
      ∧ I [] ((p.mapM f).run s).2 ((p.mapM g).run t).2 :=
  plan h [] s t (by rwa [List.append_nil])

end Agree

end ComplexityMeter.Score
