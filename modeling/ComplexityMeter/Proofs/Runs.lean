import Mathlib.Data.List.Forall2
import Mathlib.Data.List.Perm.Basic

/-!
# Runs that may be refused

Two steps succeed when both do, and else the first one that is refused decides how they end. So it
is with a run that goes through a list from its start.
-/

namespace ComplexityMeter

variable {ε β γ : Type}

theorem bind_eq_ok_iff {first : Except ε β} {next : β → Except ε γ} {y : γ} :
    first >>= next = .ok y ↔ ∃ x, first = .ok x ∧ next x = .ok y := by
  cases first <;> simp [bind, Except.bind]

theorem bind_eq_error_iff {first : Except ε β} {next : β → Except ε γ} {e : ε} :
    first >>= next = .error e ↔ first = .error e ∨ ∃ x, first = .ok x ∧ next x = .error e := by
  cases first <;> simp [bind, Except.bind]

theorem map_eq_error_iff {run : Except ε β} {f : β → γ} {e : ε} :
    run.map f = .error e ↔ run = .error e := by
  cases run <;> simp [Except.map]

theorem map_map {δ : Type} (run : Except ε β) (f : β → γ) (g : γ → δ) :
    (run.map f).map g = run.map fun x => g (f x) := by
  cases run <;> rfl

theorem exists_ok_of_isOk {run : Except ε β} (h : run.isOk = true) : ∃ y, run = .ok y := by
  cases run with
  | error e => cases h
  | ok y => exact ⟨y, rfl⟩

theorem exists_of_mem_right {R : β → γ → Prop} {xs : List β} {ys : List γ}
    (h : List.Forall₂ R xs ys) {y : γ} (hy : y ∈ ys) : ∃ x ∈ xs, R x y := by
  obtain ⟨i, hi, rfl⟩ := List.getElem_of_mem hy
  have bound : i < xs.length := h.length_eq ▸ hi
  exact ⟨xs[i], List.getElem_mem bound, h.get bound hi⟩

theorem mapM_congr {m : Type → Type} [Monad m] [LawfulMonad m] {f g : β → m γ} {xs : List β}
    (h : ∀ x ∈ xs, f x = g x) : xs.mapM f = xs.mapM g := by
  induction xs with
  | nil => rfl
  | cons x rest ih =>
    rw [List.mapM_cons, List.mapM_cons, h x List.mem_cons_self,
      ih fun y hy => h y (List.mem_cons_of_mem x hy)]

variable {f : β → Except ε γ} {xs xs' : List β} {ys : List γ}

theorem mapM_eq_ok_iff : xs.mapM f = .ok ys ↔ List.Forall₂ (fun x y => f x = .ok y) xs ys := by
  induction xs generalizing ys with
  | nil =>
    rw [List.mapM_nil, List.forall₂_nil_left_iff]
    exact ⟨fun h => (Except.ok.inj h).symm, fun h => congrArg Except.ok h.symm⟩
  | cons x rest ih =>
    rw [List.mapM_cons, List.forall₂_cons_left_iff]
    cases hx : f x with
    | error e => simp [bind, Except.bind]
    | ok y =>
      cases hrest : rest.mapM f with
      | error e => simp [bind, Except.bind, ← ih, hrest]
      | ok others => simp [bind, Except.bind, pure, Except.pure, ← ih, hrest, eq_comm]

/-- A run that succeeds on a list succeeds on it in any order, with the same values. -/
theorem mapM_perm (perm : xs'.Perm xs) (h : xs.mapM f = .ok ys) :
    ∃ ys', xs'.mapM f = .ok ys' ∧ ys'.Perm ys := by
  have related : Relation.Comp (List.Forall₂ fun x y => f x = .ok y) List.Perm xs' ys := by
    rw [List.forall₂_comp_perm_eq_perm_comp_forall₂]
    exact ⟨xs, perm, mapM_eq_ok_iff.1 h⟩
  obtain ⟨ys', values, same⟩ := related
  exact ⟨ys', mapM_eq_ok_iff.2 values, same⟩

/-- The first item that is refused decides the failure. -/
theorem mapM_eq_error_iff {e : ε} : xs.mapM f = .error e ↔ ∃ before x after,
    xs = before ++ x :: after ∧ (∀ b ∈ before, ∃ y, f b = .ok y) ∧ f x = .error e := by
  constructor
  · intro h
    induction xs with
    | nil => cases h
    | cons x rest ih =>
      rw [List.mapM_cons] at h
      cases hx : f x with
      | error e' =>
        obtain rfl : e' = e := by simpa [hx, bind, Except.bind] using h
        exact ⟨[], x, rest, rfl, by simp, hx⟩
      | ok y =>
        have later : rest.mapM f = .error e := by
          cases hrest : rest.mapM f with
          | error e' => simpa [hx, hrest, bind, Except.bind] using h
          | ok others => simp [hx, hrest, bind, Except.bind, pure, Except.pure] at h
        obtain ⟨before, z, after, rfl, passed, refused⟩ := ih later
        exact ⟨x :: before, z, after, rfl, List.forall_mem_cons.2 ⟨⟨y, hx⟩, passed⟩, refused⟩
  · rintro ⟨before, x, after, rfl, passed, refused⟩
    induction before with
    | nil => simp [List.mapM_cons, refused, bind, Except.bind]
    | cons b before ih =>
      obtain ⟨⟨y, hy⟩, passed⟩ := List.forall_mem_cons.1 passed
      simp [List.mapM_cons, hy, ih passed, bind, Except.bind]

theorem exists_mapM_eq_ok_iff : (∃ ys, xs.mapM f = .ok ys) ↔ ∀ x ∈ xs, ∃ y, f x = .ok y := by
  constructor
  · rintro ⟨ys, run⟩ x member
    obtain ⟨i, hi, rfl⟩ := List.getElem_of_mem member
    have related := mapM_eq_ok_iff.1 run
    have bound : i < ys.length := related.length_eq ▸ hi
    exact ⟨ys[i], related.get hi bound⟩
  · intro passed
    cases run : xs.mapM f with
    | ok ys => exact ⟨ys, rfl⟩
    | error e =>
      obtain ⟨before, x, after, rfl, -, refused⟩ := mapM_eq_error_iff.1 run
      obtain ⟨y, same⟩ := passed x (List.mem_append_right _ List.mem_cons_self)
      cases refused.symm.trans same

theorem forM_eq_ok_iff {f : β → Except ε Unit} : forM xs f = .ok () ↔ ∀ x ∈ xs, f x = .ok () := by
  induction xs with
  | nil => simp [pure, Except.pure]
  | cons x rest ih =>
    rw [List.forM_cons, List.forall_mem_cons]
    cases hx : f x with
    | error e => simp [bind, Except.bind]
    | ok u => simp [bind, Except.bind, ih]

theorem forM_eq_error_iff {f : β → Except ε Unit} {e : ε} : forM xs f = .error e ↔
    ∃ before x after, xs = before ++ x :: after ∧ (∀ b ∈ before, f b = .ok ())
      ∧ f x = .error e := by
  have run : forM xs f = (xs.mapM f).map fun _ => () := by
    induction xs with
    | nil => rfl
    | cons x rest ih =>
      rw [List.forM_cons, ih, List.mapM_cons]
      cases f x with
      | error _ => rfl
      | ok _ => cases rest.mapM f <;> rfl
  have refused : forM xs f = .error e ↔ xs.mapM f = .error e := by
    rw [run, map_eq_error_iff]
  have passed (x : β) : (∃ y, f x = .ok y) ↔ f x = .ok () :=
    ⟨fun ⟨(), h⟩ => h, fun h => ⟨(), h⟩⟩
  simp only [refused, mapM_eq_error_iff, passed]

end ComplexityMeter
