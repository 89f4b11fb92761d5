import ComplexityMeter.Scalar
import ComplexityMeter.Value

/-!
# Recipes for scores

A recipe says how the score of a node grows from the base score: step by step, from the scores of
its parts, fixed weights and factors. A recipe over nodes becomes a recipe over results when its
parts are scored, from the first to the last. A plan is a recipe, or a single part whose result is
taken as it is.
-/

namespace ComplexityMeter.Score

/-- One step of a recipe. -/
inductive Term (α β : Type) where
  /-- Adds the scores of parts. -/
  | sum (parts : List β)
  /-- Adds the scores of parts, all together multiplied by a factor. -/
  | scaled (factor : α) (parts : List β)
  /-- Adds a weight. -/
  | plus (weight : α)
  /-- Multiplies what has been reached by a factor. -/
  | times (factor : α)

/-- Steps, and the facts to note about the node. -/
structure Recipe (α β : Type) where
  terms : List (Term α β)
  facts : Entries (Value α)

/-- How a node is scored: by a recipe of its own, or as the part that it wraps. -/
inductive Plan (α β : Type) where
  | recipe (recipe : Recipe α β)
  | inner (part : β)

namespace Term

variable {α β γ : Type}

def parts : Term α β → List β
  | .sum ps => ps
  | .scaled _ ps => ps
  | .plus _ | .times _ => []

def map (f : β → γ) : Term α β → Term α γ
  | .sum ps => .sum (ps.map f)
  | .scaled factor ps => .scaled factor (ps.map f)
  | .plus weight => .plus weight
  | .times factor => .times factor

theorem map_map {δ : Type} (g : γ → δ) (f : β → γ) (t : Term α β) :
    (t.map f).map g = t.map fun b => g (f b) := by
  cases t <;> simp [map]

def mapM {m : Type → Type} [Monad m] (f : β → m γ) : Term α β → m (Term α γ)
  | .sum ps => return .sum (← ps.mapM f)
  | .scaled factor ps => return .scaled factor (← ps.mapM f)
  | .plus weight => return .plus weight
  | .times factor => return .times factor

/-- The same step over parts that are known to have a property. -/
def attachWith (P : β → Prop) : (t : Term α β) → (∀ b ∈ t.parts, P b) → Term α {b // P b}
  | .sum ps, h => .sum (ps.attachWith P h)
  | .scaled factor ps, h => .scaled factor (ps.attachWith P h)
  | .plus weight, _ => .plus weight
  | .times factor, _ => .times factor

@[simp] theorem parts_map (f : β → γ) (t : Term α β) : (t.map f).parts = t.parts.map f := by
  cases t <;> rfl

@[simp] theorem mapM_pure {m : Type → Type} [Monad m] [LawfulMonad m] (f : β → γ) (t : Term α β) :
    t.mapM (fun b => (pure (f b) : m γ)) = pure (t.map f) := by
  cases t <;> simp [map, mapM]

@[simp] theorem map_attachWith {P : β → Prop} (t : Term α β) (h : ∀ b ∈ t.parts, P b) :
    (t.attachWith P h).map Subtype.val = t := by
  cases t with
  | sum ps => exact congrArg Term.sum (List.attachWith_map_subtype_val h)
  | scaled factor ps => exact congrArg (Term.scaled factor) (List.attachWith_map_subtype_val h)
  | plus weight => rfl
  | times factor => rfl

@[simp] theorem mapM_map {δ : Type} {m : Type → Type} [Monad m] [LawfulMonad m] (f : γ → m δ)
    (g : β → γ) (t : Term α β) : (t.map g).mapM f = t.mapM fun b => f (g b) := by
  cases t <;> simp [map, mapM, Function.comp_def]

/-- The score after one step, given the scores of the parts. -/
def apply [Scalar α] (score : α) : Term α α → α
  | .sum ps => score + Scalar.sum ps
  | .scaled factor ps => score + Scalar.sum ps * factor
  | .plus weight => score + weight
  | .times factor => score * factor

end Term

namespace Recipe

variable {α β γ : Type}

/-- All parts, in the order in which they are scored. -/
def parts (r : Recipe α β) : List β :=
  r.terms.flatMap Term.parts

def map (f : β → γ) (r : Recipe α β) : Recipe α γ :=
  ⟨r.terms.map (Term.map f), r.facts⟩

def mapM {m : Type → Type} [Monad m] (f : β → m γ) (r : Recipe α β) : m (Recipe α γ) :=
  return ⟨← r.terms.mapM (Term.mapM f), r.facts⟩

def attachWith (P : β → Prop) (r : Recipe α β) (h : ∀ b ∈ r.parts, P b) : Recipe α {b // P b} :=
  ⟨r.terms.pmap (Term.attachWith P) fun t ht b hb => h b (List.mem_flatMap.2 ⟨t, ht, hb⟩), r.facts⟩

@[simp] theorem parts_map (f : β → γ) (r : Recipe α β) : (r.map f).parts = r.parts.map f := by
  simp [map, parts, List.flatMap_map, List.map_flatMap]

@[simp] theorem mapM_pure {m : Type → Type} [Monad m] [LawfulMonad m] (f : β → γ)
    (r : Recipe α β) : r.mapM (fun b => (pure (f b) : m γ)) = pure (r.map f) := by
  have terms : Term.mapM (α := α) (fun b => (pure (f b) : m γ)) = fun t => pure (t.map f) :=
    funext fun t => t.mapM_pure f
  simp [map, mapM, terms]

@[simp] theorem map_attachWith {P : β → Prop} (r : Recipe α β) (h : ∀ b ∈ r.parts, P b) :
    (r.attachWith P h).map Subtype.val = r := by
  simp [attachWith, map, List.map_pmap]

@[simp] theorem mapM_map {δ : Type} {m : Type → Type} [Monad m] [LawfulMonad m] (f : γ → m δ)
    (g : β → γ) (r : Recipe α β) : (r.map g).mapM f = r.mapM fun b => f (g b) := by
  simp [map, mapM, Function.comp_def]

def value [Scalar α] (r : Recipe α α) : α :=
  r.terms.foldl Term.apply 1.0

end Recipe

namespace Plan

variable {α β γ : Type}

def parts : Plan α β → List β
  | .recipe r => r.parts
  | .inner b => [b]

def map (f : β → γ) : Plan α β → Plan α γ
  | .recipe r => .recipe (r.map f)
  | .inner b => .inner (f b)

theorem map_map {δ : Type} (g : γ → δ) (f : β → γ) (p : Plan α β) :
    (p.map f).map g = p.map fun b => g (f b) := by
  cases p <;> simp [map, Recipe.map, Term.map_map]

def mapM {m : Type → Type} [Monad m] (f : β → m γ) : Plan α β → m (Plan α γ)
  | .recipe r => return .recipe (← r.mapM f)
  | .inner b => return .inner (← f b)

def attachWith (P : β → Prop) : (p : Plan α β) → (∀ b ∈ p.parts, P b) → Plan α {b // P b}
  | .recipe r, h => .recipe (r.attachWith P h)
  | .inner b, h => .inner ⟨b, h b List.mem_cons_self⟩

@[simp] theorem mapM_pure {m : Type → Type} [Monad m] [LawfulMonad m] (f : β → γ) (p : Plan α β) :
    p.mapM (fun b => (pure (f b) : m γ)) = pure (p.map f) := by
  cases p <;> simp [map, mapM]

@[simp] theorem map_attachWith {P : β → Prop} (p : Plan α β) (h : ∀ b ∈ p.parts, P b) :
    (p.attachWith P h).map Subtype.val = p := by
  cases p with
  | recipe r => exact congrArg Plan.recipe (r.map_attachWith h)
  | inner b => rfl

@[simp] theorem mapM_map {δ : Type} {m : Type → Type} [Monad m] [LawfulMonad m] (f : γ → m δ)
    (g : β → γ) (p : Plan α β) : (p.map g).mapM f = p.mapM fun b => f (g b) := by
  cases p <;> simp [map, mapM]

theorem mapM_attachWith {P : β → Prop} {m : Type → Type} [Monad m] [LawfulMonad m] (f : β → m γ)
    (p : Plan α β) (h : ∀ b ∈ p.parts, P b) :
    ((p.attachWith P h).mapM fun b => f b.1) = p.mapM f := by
  rw [← mapM_map f Subtype.val, map_attachWith]

theorem mapM_congr {m : Type → Type} [Monad m] [LawfulMonad m] {f g : β → m γ} {p : Plan α β}
    (h : ∀ b ∈ p.parts, f b = g b) : p.mapM f = p.mapM g := by
  rw [← mapM_attachWith f p h, ← mapM_attachWith g p h]
  exact congrArg (mapM · _) (funext fun b => b.2)

end Plan

end ComplexityMeter.Score
