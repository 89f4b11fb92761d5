import Mathlib.Data.Rat.Floor
import Mathlib.Analysis.Real.Sqrt
import ComplexityMeter.Scalar

/-!
# Exact numbers

Scores read as exact numbers: the rationals, and where square roots are taken the reals. The
operations are those of the two fields, so their laws hold of scores.
-/

namespace ComplexityMeter

instance Scalar.rat : Scalar ℚ where
  decidableLE := inferInstance
  decidableLT := inferInstance
  floor := Int.floor
  ceil := Int.ceil

noncomputable instance Scalar.real : Scalar ℝ where
  decidableLE := inferInstance
  decidableLT := inferInstance
  floor := Int.floor
  ceil := Int.ceil

noncomputable instance SquareRoot.real : SquareRoot ℝ := ⟨Real.sqrt⟩

namespace Scalar

theorem sum_rat (xs : List ℚ) : Scalar.sum xs = xs.sum := by
  rw [Scalar.sum, List.sum_eq_foldl, Nat.cast_zero]

theorem sum_real (xs : List ℝ) : Scalar.sum xs = xs.sum := by
  rw [Scalar.sum, List.sum_eq_foldl, Nat.cast_zero]

theorem foldl_add_rat {β : Type} (f : β → ℚ) (start : ℚ) (xs : List β) :
    xs.foldl (fun sum x => sum + f x) start = start + (xs.map f).sum := by
  induction xs generalizing start with
  | nil => simp
  | cons x rest ih => rw [List.foldl_cons, ih, List.map_cons, List.sum_cons, add_assoc]

end Scalar

end ComplexityMeter
