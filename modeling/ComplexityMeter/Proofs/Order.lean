import Mathlib.Data.Prod.Lex
import Mathlib.Order.Std
import ComplexityMeter.Number

/-!
# Numbers in order

Verdicts and rankings compare numbers by `<` alone. Where it orders the numbers by value, equal
values being allowed to differ as numbers, verdicts are as consistent as the order. It does so in
every linear order, and among the doubles that are no NaN: zeros of both signs are one value there.
-/

namespace ComplexityMeter

/-- Numbers of some kind are ordered by value: the order is strict and transitive, and every number
of that kind stands below the upper one of two or above the lower one. -/
structure Scalar.Ordered {α : Type} [Scalar α] (P : α → Prop) : Prop where
  irrefl : ∀ x, P x → ¬ x < x
  trans : ∀ {x y z}, P x → P y → P z → x < y → y < z → x < z
  apart : ∀ {x z}, P x → P z → x < z → ∀ y, P y → x < y ∨ y < z

namespace Scalar.Ordered

variable {α : Type} [Scalar α] {P : α → Prop}

theorem asymm (h : Ordered P) {x y : α} (hx : P x) (hy : P y) (below : x < y) : ¬ y < x :=
  fun above => h.irrefl x hx (h.trans hx hy hx below above)

/-- Numbers of which neither is below the other are below the same numbers. -/
theorem lt_of_lt_of_tie (order : Ordered P) {x y z : α} (hx : P x) (hy : P y) (hz : P z)
    (below : x < y) (tie : ¬ z < y) : x < z :=
  (order.apart hx hy below z hz).resolve_right tie

/-- Numbers of which neither is below the other are above the same numbers. -/
theorem lt_of_tie_of_lt (order : Ordered P) {x y z : α} (hx : P x) (hy : P y) (hz : P z)
    (tie : ¬ y < x) (below : y < z) : x < z :=
  (order.apart hy hz below x hx).resolve_left tie

theorem not_lt_trans (order : Ordered P) {x y z : α} (hx : P x) (hy : P y) (hz : P z)
    (first : ¬ x < y) (second : ¬ y < z) : ¬ x < z :=
  fun below => (order.apart hx hz below y hy).elim first second

theorem of_linear [Std.IsLinearOrder α] [Std.LawfulOrderLT α] : Ordered fun _ : α => True where
  irrefl x _ := Std.lt_irrefl
  trans _ _ _ := Std.lt_trans
  apart {x z} _ _ below y _ := by
    by_cases first : x < y
    · exact .inl first
    · exact .inr (Std.lt_of_le_of_lt (Std.not_lt.1 first) below)

end Scalar.Ordered

/-- Numbers of some kind compare: they are ordered by value, and a number is at most another one
exactly when that one is not below it. -/
structure Scalar.Comparable {α : Type} [Scalar α] (P : α → Prop) : Prop
    extends Scalar.Ordered P where
  le_iff : ∀ {x y}, P x → P y → (x ≤ y ↔ ¬ y < x)

namespace Scalar.Comparable

variable {α : Type} [Scalar α] {P : α → Prop}

theorem le_refl (h : Comparable P) {x : α} (hx : P x) : x ≤ x :=
  (h.le_iff hx hx).2 (h.irrefl x hx)

theorem le_trans (h : Comparable P) {x y z : α} (hx : P x) (hy : P y) (hz : P z) (first : x ≤ y)
    (second : y ≤ z) : x ≤ z :=
  (h.le_iff hx hz).2 (h.not_lt_trans hz hy hx ((h.le_iff hy hz).1 second)
    ((h.le_iff hx hy).1 first))

theorem le_total (h : Comparable P) {x y : α} (hx : P x) (hy : P y) : x ≤ y ∨ y ≤ x := by
  rw [h.le_iff hx hy, h.le_iff hy hx]
  by_cases below : y < x
  · exact .inr (h.asymm hy hx below)
  · exact .inl below

theorem of_linear [Std.IsLinearOrder α] [Std.LawfulOrderLT α] :
    Comparable fun _ : α => True where
  toOrdered := .of_linear
  le_iff _ _ := Std.not_lt.symm

end Scalar.Comparable

/-! ### Doubles -/

open Float.Model (Format UnpackedFloat)

/-- Where an unpacked double stands: by its sign and size class, then by exponent and mantissa. -/
def rank : UnpackedFloat → ℤ ×ₗ ℤ ×ₗ ℤ
  | .notANumber => toLex (0, toLex (0, 0))
  | .infinity .negative => toLex (-2, toLex (0, 0))
  | .finite .negative m e _ => toLex (-1, toLex (-e, -(m : ℤ)))
  | .zero _ => toLex (0, toLex (0, 0))
  | .finite .positive m e _ => toLex (1, toLex (e, (m : ℤ)))
  | .infinity .positive => toLex (2, toLex (0, 0))

theorem then_eq_lt_iff {e e' : ℤ} {m m' : ℕ} :
    (compare e e').then (compare m m') = .lt ↔ e < e' ∨ e = e' ∧ m < m' := by
  rw [Ordering.then_eq_lt, compare_lt_iff_lt, compare_eq_iff_eq, compare_lt_iff_lt]

theorem then_eq_gt_iff {e e' : ℤ} {m m' : ℕ} :
    (compare e e').then (compare m m') = .gt ↔ e' < e ∨ e = e' ∧ m' < m := by
  rw [Ordering.then_eq_gt, compare_gt_iff_gt, compare_eq_iff_eq, compare_gt_iff_gt]

theorem lt_iff_rank_lt {a b : UnpackedFloat} (ha : a ≠ .notANumber) (hb : b ≠ .notANumber) :
    a.lt b = true ↔ rank a < rank b := by
  have signs : compare UnpackedFloat.Sign.negative UnpackedFloat.Sign.positive = .lt := rfl
  rcases a with (_ | _) | _ | _ | ⟨(_ | _), m, e, _⟩ <;>
  rcases b with (_ | _) | _ | _ | ⟨(_ | _), m', e', _⟩ <;> try contradiction
  all_goals
    unfold UnpackedFloat.lt UnpackedFloat.compare rank
    simp [Prod.Lex.toLex_lt_toLex, signs, then_eq_lt_iff, then_eq_gt_iff]

theorem unpack_ne_notANumber {x : Float} (hx : x.isNaN = false) :
    x.toModel.unpack ≠ .notANumber := by
  intro nan
  have unpacked : x.isNaN = UnpackedFloat.isNaN x.toModel.unpack := rfl
  rw [unpacked, nan] at hx
  cases hx

theorem double_lt_iff {x y : Float} (hx : x.isNaN = false) (hy : y.isNaN = false) :
    x < y ↔ rank x.toModel.unpack < rank y.toModel.unpack := by
  have less : x < y ↔ x.toModel.unpack.lt y.toModel.unpack = true :=
    decide_eq_true_iff
  rw [less, lt_iff_rank_lt (unpack_ne_notANumber hx) (unpack_ne_notANumber hy)]

/-- A number that is a double and no NaN. -/
def Number.IsOrderedDouble : Number → Prop
  | .float x => x.isNaN = false
  | .int _ | .overflow => False

instance : DecidablePred Number.IsOrderedDouble
  | .float x => inferInstanceAs (Decidable (x.isNaN = false))
  | .int _ | .overflow => inferInstanceAs (Decidable False)

namespace Number

theorem IsOrderedDouble.exists_float {a : Number} (h : a.IsOrderedDouble) :
    ∃ x : Float, a = .float x ∧ x.isNaN = false := by
  cases a with
  | float x => exact ⟨x, rfl, h⟩
  | int _ => exact h.elim
  | overflow => exact h.elim

theorem float_lt_iff {x y : Float} : Number.float x < Number.float y ↔ x < y := by
  change (compareDoubles x y == some .lt) = true ↔ x < y
  unfold compareDoubles
  split_ifs <;> simp_all

theorem lt_iff_of_isOrderedDouble {x y : Float} (hx : x.isNaN = false) (hy : y.isNaN = false) :
    Number.float x < Number.float y ↔ rank x.toModel.unpack < rank y.toModel.unpack :=
  float_lt_iff.trans (double_lt_iff hx hy)

theorem ordered_doubles : Scalar.Ordered IsOrderedDouble where
  irrefl a ha := by
    obtain ⟨x, rfl, hx⟩ := ha.exists_float
    rw [lt_iff_of_isOrderedDouble hx hx]
    exact lt_irrefl _
  trans ha hb hc := by
    obtain ⟨x, rfl, hx⟩ := ha.exists_float
    obtain ⟨y, rfl, hy⟩ := hb.exists_float
    obtain ⟨z, rfl, hz⟩ := hc.exists_float
    rw [lt_iff_of_isOrderedDouble hx hy, lt_iff_of_isOrderedDouble hy hz,
      lt_iff_of_isOrderedDouble hx hz]
    exact lt_trans
  apart ha hc below b hb := by
    obtain ⟨x, rfl, hx⟩ := ha.exists_float
    obtain ⟨y, rfl, hy⟩ := hb.exists_float
    obtain ⟨z, rfl, hz⟩ := hc.exists_float
    rw [lt_iff_of_isOrderedDouble hx hz] at below
    rw [lt_iff_of_isOrderedDouble hx hy, lt_iff_of_isOrderedDouble hy hz]
    exact below.gt_or_lt _

end Number

/-! ### Bounds -/

theorem unpack_eq_notANumber_iff {bits : BitVec 64} :
    UnpackedFloat.unpack Format.binary64 bits = .notANumber
      ↔ bits.toNat / Nat.pow 2 52 % 2048 = 2047 ∧ bits.toNat % Nat.pow 2 52 ≠ 0 := by
  have exponent : @UnpackedFloat.unpackExponent Format.binary64 bits = -1#11
      ↔ bits.toNat / Nat.pow 2 52 % 2048 = 2047 := by
    rw [← BitVec.toNat_inj]
    simp [UnpackedFloat.unpackExponent, Nat.shiftRight_eq_div_pow]
  have fraction : @UnpackedFloat.unpackMantissa Format.binary64 bits = 0#52
      ↔ bits.toNat % Nat.pow 2 52 = 0 := by
    rw [← BitVec.toNat_inj]
    simp [UnpackedFloat.unpackMantissa]
  rw [← exponent, Ne, ← fraction]
  unfold UnpackedFloat.unpack
  dsimp only
  by_cases full : @UnpackedFloat.unpackExponent Format.binary64 bits = -1#11
  · rw [if_pos full]
    by_cases zero : @UnpackedFloat.unpackMantissa Format.binary64 bits = 0#52
    · rw [if_pos zero]
      exact iff_of_false UnpackedFloat.noConfusion fun both => both.2 zero
    · rw [if_neg zero]
      exact iff_of_true rfl ⟨full, zero⟩
  · rw [if_neg full]
    refine iff_of_false ?_ fun both => full both.1
    by_cases least : @UnpackedFloat.unpackExponent Format.binary64 bits = 0#11
    · rw [if_pos least]
      by_cases zero : @UnpackedFloat.unpackMantissa Format.binary64 bits = 0#52
      · rw [dif_pos zero]
        exact UnpackedFloat.noConfusion
      · rw [dif_neg zero]
        exact UnpackedFloat.noConfusion
    · rw [if_neg least]
      exact UnpackedFloat.noConfusion

theorem reading_eq_nan_iff {x : Float} : Decimal.Reading.ofFloat x = .nan ↔ x.isNaN = true := by
  have unpacked : x.isNaN = true
      ↔ UnpackedFloat.unpack Format.binary64 x.toBits.toBitVec = .notANumber := by
    change UnpackedFloat.isNaN (UnpackedFloat.unpack Format.binary64 x.toBits.toBitVec) = true ↔ _
    cases UnpackedFloat.unpack Format.binary64 x.toBits.toBitVec with
    | notANumber => exact iff_of_true rfl rfl
    | _ => constructor <;> intro h <;> cases h
  rw [unpacked, unpack_eq_notANumber_iff, Decimal.Reading.ofFloat, Decimal.Reading.ofBits]
  simp only [UInt64.toNat_toBitVec]
  split_ifs <;> simp_all

theorem Number.int_le_int_iff {m n : ℤ} : Number.int m ≤ .int n ↔ m ≤ n := by
  change isAtMost (.int m) (.int n) = true ↔ m ≤ n
  simp [isAtMost, compare?, compare_lt_iff_lt, le_iff_lt_or_eq]

theorem Number.not_lt_int_iff {x : Number} (value : x.hasValue = true) {bound : Int} :
    ¬ x < .int bound ↔ .int bound ≤ x ∨ x.isNaN = true := by
  change ¬ x.isLess (.int bound) = true ↔ isAtMost (.int bound) x = true ∨ x.isNaN = true
  have compared (m n : ℤ) : (¬ compare m n = .lt ↔ compare n m = .lt ∨ n = m)
      ∧ (¬ compare n m = .gt ↔ compare n m = .lt ∨ n = m) := by
    rw [compare_lt_iff_lt, compare_lt_iff_lt, compare_gt_iff_gt]
    omega
  cases x with
  | int n => simpa [isLess, isAtMost, compare?, isNaN] using (compared n bound).1
  | float x =>
    rw [isNaN, ← reading_eq_nan_iff]
    simp only [isLess, isAtMost, compare?]
    cases reading : Decimal.Reading.ofFloat x with
    | nan => simp [Decimal.Reading.compareInt]
    | finite d =>
      simpa [Decimal.Reading.compareInt] using (compared d.numerator (bound * d.fraction.2)).2
    | infinite negative => cases negative <;> simp [Decimal.Reading.compareInt]
  | overflow => cases value

theorem Number.not_int_le_of_isNaN {x : Number} (nan : x.isNaN = true) (bound : Int) :
    ¬ .int bound ≤ x := by
  cases x with
  | float x =>
    have reading : Decimal.Reading.ofFloat x = .nan := reading_eq_nan_iff.2 nan
    change ¬ isAtMost (.int bound) (.float x) = true
    simp [isAtMost, compare?, reading, Decimal.Reading.compareInt]
  | int _ | overflow => cases nan

end ComplexityMeter
