import ComplexityMeter.Proofs.Place

/-!
# Whole units in doubles

A double holds fewer than `2 ^ 53` units exactly, the unit being a power of two that is neither too
small nor too large. As long as there are no more of them, sums and products of such doubles are not
rounded, and a whole number has its double. What a run adds up in whole numbers or in halves is
therefore the exact sum.
-/

namespace ComplexityMeter

open Float.Model (Format UnpackedFloat totalExponent)
open Float.Model.UnpackedFloat

/-! ### Mantissas of 53 bits -/

theorem log2_mul_two_pow {k : ℕ} (h : k ≠ 0) (i : ℕ) : (k * 2 ^ i).log2 = k.log2 + i := by
  induction i with
  | zero => rw [pow_zero, mul_one, add_zero]
  | succ i ih =>
    rw [pow_succ', mul_left_comm, Nat.log2_two_mul (by positivity), ih, add_assoc]

theorem shiftRight_mul_two_pow (m i : ℕ) :
    (⟨m * 2 ^ i, false, false⟩ : ExtendedMantissa) >>> i = ⟨m, false, false⟩ := by
  change Nat.repeat ExtendedMantissa.shiftRightOne i _ = _
  induction i generalizing m with
  | zero =>
    rw [pow_zero, mul_one]
    rfl
  | succ i ih =>
    rw [Nat.repeat, pow_succ', ← mul_assoc, ih]
    simp [ExtendedMantissa.shiftRightOne]

/-- A mantissa of 53 bits, and an exponent that is not too small for it. -/
structure IsNormal (m : ℕ) (e : ℤ) : Prop where
  leading : 2 ^ 52 ≤ m
  bounded : m < 2 ^ 53
  exponent : -1074 ≤ e

namespace IsNormal

variable {m : ℕ} {e : ℤ} (h : IsNormal m e)
include h

theorem pos : 0 < m :=
  Nat.lt_of_lt_of_le (by norm_num) h.leading

theorem log2_eq : m.log2 = 52 :=
  (Nat.log2_eq_iff h.pos.ne').2 ⟨h.leading, h.bounded⟩

theorem targetExponent_eq (i : ℕ) :
    Format.binary64.targetExponent (totalExponent (m * 2 ^ i) (e - i)) = e := by
  have least : Format.binary64.minExponent = -1074 := by decide
  have bits : Format.binary64.mantissaBits = 53 := by decide
  rw [Format.targetExponent, totalExponent, log2_mul_two_pow h.pos.ne', h.log2_eq, least, bits]
  have := h.exponent
  omega

theorem shiftToTargetExponent_eq (i : ℕ) :
    shiftToTargetExponent Format.binary64 (m * 2 ^ i) (e - i) .exact
      = (⟨m, false, false⟩, e) := by
  have amount : (e - (e - i)).toNat = i := by omega
  rw [shiftToTargetExponent, h.targetExponent_eq, shiftToExponent, amount,
    ExtendedMantissa.ofMantissaAndAccuracy, shiftRight_mul_two_pow, sub_add_cancel]

/-- Rounding away zeros does not change a number. -/
theorem roundWithAccuracy_eq (s : Sign) (i : ℕ) :
    roundWithAccuracy Format.binary64 s (m * 2 ^ i) (e - i) .exact = .finite s m e h.pos := by
  have once := h.shiftToTargetExponent_eq i
  have again := h.shiftToTargetExponent_eq 0
  rw [pow_zero, mul_one, Nat.cast_zero, sub_zero] at again
  have rounded : (⟨m, false, false⟩ : ExtendedMantissa).roundedMantissa = m := rfl
  rw [roundWithAccuracy, once]
  dsimp only
  rw [rounded, again]
  exact dif_neg h.pos.ne'

end IsNormal

/-! ### Units -/

/-- How far the count of some units is shifted to fill a mantissa. -/
def headroom (k : ℕ) : ℕ :=
  52 - k.log2

/-- Some units of the size `2 ^ e`, as an unpacked double. -/
def unpackedUnits (k : ℕ) (e : ℤ) : UnpackedFloat :=
  if h : k = 0 then .zero .positive
  else .finite .positive (k * 2 ^ headroom k) (e - headroom k) (by positivity)

/-- The unit is neither too small nor too large for a double. -/
def UnitFits (e : ℤ) : Prop :=
  -1022 ≤ e ∧ e ≤ 971

instance : DecidablePred UnitFits :=
  fun e => inferInstanceAs (Decidable (-1022 ≤ e ∧ e ≤ 971))

section

variable {k l : ℕ} {e f : ℤ}

theorem isNormal_units (hk : k ≠ 0) (small : k < 2 ^ 53) (unit : -1022 ≤ e) :
    IsNormal (k * 2 ^ headroom k) (e - headroom k) := by
  have least := Nat.log2_self_le hk
  have greatest : k < 2 ^ (k.log2 + 1) := Nat.lt_log2_self
  have bits : k.log2 < 53 := (Nat.log2_lt hk).2 small
  refine ⟨?_, ?_, ?_⟩
  · calc 2 ^ 52 = 2 ^ k.log2 * 2 ^ headroom k := by
          rw [← pow_add, headroom]
          congr 1
          omega
      _ ≤ k * 2 ^ headroom k := Nat.mul_le_mul_right _ least
  · calc k * 2 ^ headroom k < 2 ^ (k.log2 + 1) * 2 ^ headroom k :=
          Nat.mul_lt_mul_of_pos_right greatest (by positivity)
      _ = 2 ^ 53 := by
          rw [← pow_add, headroom]
          congr 1
          omega
  · rw [headroom]
    omega

theorem unpackedUnits_of_ne_zero (hk : k ≠ 0) :
    unpackedUnits k e
      = .finite .positive (k * 2 ^ headroom k) (e - headroom k) (by positivity) :=
  dif_neg hk

theorem round_units (hk : k ≠ 0) (small : k < 2 ^ 53) (unit : -1022 ≤ e) (j : ℕ) :
    UnpackedFloat.round Format.binary64 .positive (k * 2 ^ j) (e - j) = unpackedUnits k e := by
  have normal := isNormal_units hk small unit
  have target : Format.binary64.targetExponent (totalExponent (k * 2 ^ j) (e - j))
      = e - headroom k := by
    rw [← normal.targetExponent_eq 0, totalExponent, totalExponent, pow_zero, mul_one,
      log2_mul_two_pow hk, log2_mul_two_pow hk]
    congr 1
    push_cast
    ring
  have mantissa : (k * 2 ^ j) <<< (e - j - (e - headroom k)).toNat
      = k * 2 ^ headroom k * 2 ^ (j - headroom k) := by
    rw [Nat.shiftLeft_eq, mul_assoc, mul_assoc, ← pow_add, ← pow_add]
    congr 2
    omega
  have exponent : e - j - ((e - j - (e - headroom k)).toNat : ℤ)
      = e - headroom k - (j - headroom k : ℕ) := by
    omega
  rw [UnpackedFloat.round, target, decreaseExponent, unpackedUnits_of_ne_zero hk]
  dsimp only
  rw [mantissa, exponent]
  exact normal.roundWithAccuracy_eq .positive (j - headroom k)

theorem add_units (small : k + l < 2 ^ 53) (unit : -1022 ≤ e) :
    UnpackedFloat.add Format.binary64 (unpackedUnits k e) (unpackedUnits l e)
      = unpackedUnits (k + l) e := by
  rcases eq_or_ne k 0 with rfl | hk
  · rw [zero_add]
    rcases eq_or_ne l 0 with rfl | hl
    · rfl
    · rw [unpackedUnits_of_ne_zero hl]
      rfl
  rcases eq_or_ne l 0 with rfl | hl
  · rw [add_zero, unpackedUnits_of_ne_zero hk]
    rfl
  have part (n : ℕ) (h : headroom n ≤ max (headroom k) (headroom l)) :
      (decreaseExponent (n * 2 ^ headroom n) (e - headroom n)
        (min (e - headroom k) (e - headroom l))).1 = n * 2 ^ max (headroom k) (headroom l) := by
    rw [decreaseExponent]
    dsimp only
    rw [Nat.shiftLeft_eq, mul_assoc, ← pow_add]
    congr 2
    omega
  have exponent : min (e - headroom k) (e - headroom l)
      = e - (max (headroom k) (headroom l) : ℕ) := by omega
  have total : (0 : ℤ) < (((k + l) * 2 ^ max (headroom k) (headroom l) : ℕ) : ℤ) := by
    positivity
  rw [unpackedUnits_of_ne_zero hk, unpackedUnits_of_ne_zero hl, UnpackedFloat.add]
  dsimp only
  rw [part k (le_max_left _ _), part l (le_max_right _ _), exponent]
  have sum : Sign.positive.apply ((k * 2 ^ max (headroom k) (headroom l) : ℕ) : ℤ)
      + Sign.positive.apply ((l * 2 ^ max (headroom k) (headroom l) : ℕ) : ℤ)
      = (((k + l) * 2 ^ max (headroom k) (headroom l) : ℕ) : ℤ) := by
    rw [Sign.apply, Sign.apply]
    push_cast
    ring
  rw [sum, UnpackedFloat.normalize, compare_gt_iff_gt.2 total]
  exact round_units (by omega) small unit _

theorem mul_units (small : k * l < 2 ^ 53) (unit : -1022 ≤ e + f) :
    UnpackedFloat.mul Format.binary64 (unpackedUnits k e) (unpackedUnits l f)
      = unpackedUnits (k * l) (e + f) := by
  rcases eq_or_ne k 0 with rfl | hk
  · rw [zero_mul]
    rcases eq_or_ne l 0 with rfl | hl
    · rfl
    · rw [unpackedUnits_of_ne_zero hl]
      rfl
  rcases eq_or_ne l 0 with rfl | hl
  · rw [mul_zero, unpackedUnits_of_ne_zero hk]
    rfl
  have product : k * l ≠ 0 := mul_ne_zero hk hl
  have normal := isNormal_units product small unit
  have logs : k.log2 + l.log2 ≤ (k * l).log2 := by
    rw [Nat.le_log2 product, pow_add]
    exact Nat.mul_le_mul (Nat.log2_self_le hk) (Nat.log2_self_le hl)
  have bits : (k * l).log2 < 53 := (Nat.log2_lt product).2 small
  obtain ⟨i, room⟩ : ∃ i, headroom k + headroom l = headroom (k * l) + i := by
    refine Nat.exists_eq_add_of_le ?_
    simp only [headroom]
    omega
  have mantissa : k * 2 ^ headroom k * (l * 2 ^ headroom l)
      = k * l * 2 ^ headroom (k * l) * 2 ^ i := by
    rw [mul_assoc (k * l), ← pow_add, ← room, pow_add]
    ring
  have exponent : e - headroom k + (f - headroom l) = e + f - headroom (k * l) - i := by
    omega
  rw [unpackedUnits_of_ne_zero hk, unpackedUnits_of_ne_zero hl, unpackedUnits_of_ne_zero product,
    UnpackedFloat.mul, mantissa, exponent]
  exact normal.roundWithAccuracy_eq _ _

end

/-! ### Packing -/

theorem ofBitVec_unpackSign_packComponents (s : Sign) (exponent : BitVec 11)
    (mantissa : BitVec 52) :
    Sign.ofBitVec (unpackSign (packComponents Format.binary64 s exponent mantissa)) = s := by
  simp only [unpackSign, packComponents, BitVec.extractLsb]
  rw [BitVec.extractLsb'_append_eq_of_le (by omega), BitVec.extractLsb'_append_eq_of_le (by omega)]
  cases s <;> rfl

theorem IsNormal.unpack_pack {m : ℕ} {e : ℤ} (h : IsNormal m e) (below : e ≤ 971) (s : Sign) :
    UnpackedFloat.unpack Format.binary64 (UnpackedFloat.pack Format.binary64 (.finite s m e h.pos))
      = .finite s m e h.pos := by
  have bias : (Format.binary64.exponentBias : ℤ) = 1023 := rfl
  have bits : Format.binary64.mantissaBits = 53 := by decide
  have biased : (e + (Format.binary64.exponentBias : ℤ)
      + (Format.binary64.mantissaBitsWithoutImplicit : ℤ)).toNat = (e + 1075).toNat := by
    rw [bias]
    congr 1
    push_cast
    ring
  have log2 := h.log2_eq
  obtain ⟨leading, bounded, least⟩ := id h
  have exponent : (BitVec.ofNat 11 (e + 1075).toNat).toNat = (e + 1075).toNat := by
    rw [BitVec.toNat_ofNat, Nat.mod_eq_of_lt (by omega)]
  have notFull : BitVec.ofNat 11 (e + 1075).toNat ≠ -1#11 := by
    have full : (-1#11).toNat = 2047 := by decide
    rw [Ne, ← BitVec.toNat_inj, exponent, full]
    omega
  have notLeast : BitVec.ofNat 11 (e + 1075).toNat ≠ 0#11 := by
    rw [Ne, ← BitVec.toNat_inj, exponent, BitVec.toNat_zero]
    omega
  have mantissa : (1#1 ++ BitVec.ofNat 52 m).toNat = m := by
    rw [BitVec.toNat_append, ← Nat.shiftLeft_add_eq_or_of_lt (BitVec.ofNat 52 m).isLt,
      BitVec.toNat_ofNat, Nat.shiftLeft_eq, BitVec.toNat_ofNat]
    omega
  have finite : ¬ 2 ^ 11 ≤ (e + 1075).toNat + 1 := by omega
  unfold UnpackedFloat.pack
  dsimp only
  rw [biased, log2, bits, if_neg finite, if_pos (by norm_num)]
  unfold UnpackedFloat.unpack
  simp only [unpackExponent_packComponents, unpackMantissa_packComponents,
    ofBitVec_unpackSign_packComponents]
  rw [if_neg notFull, if_neg notLeast]
  simp [mantissa, exponent, bias]
  omega

theorem unpack_pack_units {k : ℕ} {e : ℤ} (small : k < 2 ^ 53) (unit : UnitFits e) :
    (Float.Model.pack (unpackedUnits k e)).unpack = unpackedUnits k e := by
  change UnpackedFloat.unpack Format.binary64 (UnpackedFloat.pack Format.binary64 _) = _
  rcases eq_or_ne k 0 with rfl | hk
  · rw [unpackedUnits, dif_pos rfl]
    rfl
  · rw [unpackedUnits_of_ne_zero hk]
    have normal := isNormal_units hk small unit.1
    exact normal.unpack_pack (by have := unit.2; omega) .positive

/-! ### Doubles that hold units -/

/-- A double holds some units of the size `2 ^ e`, exactly. -/
def HoldsUnits (x : Float) (k : ℕ) (e : ℤ) : Prop :=
  x.toModel.unpack = unpackedUnits k e

namespace HoldsUnits

variable {x y : Float} {k l : ℕ} {e f : ℤ}

theorem add (hx : HoldsUnits x k e) (hy : HoldsUnits y l e) (small : k + l < 2 ^ 53)
    (unit : UnitFits e) : HoldsUnits (x + y) (k + l) e := by
  change (Float.Model.pack (UnpackedFloat.add Format.binary64 x.toModel.unpack
    y.toModel.unpack)).unpack = _
  rw [hx, hy, add_units small unit.1, unpack_pack_units small unit]

theorem mul (hx : HoldsUnits x k e) (hy : HoldsUnits y l f) (small : k * l < 2 ^ 53)
    (unit : UnitFits (e + f)) : HoldsUnits (x * y) (k * l) (e + f) := by
  change (Float.Model.pack (UnpackedFloat.mul Format.binary64 x.toModel.unpack
    y.toModel.unpack)).unpack = _
  rw [hx, hy, mul_units small unit.1, unpack_pack_units small unit]

theorem isFinite (hx : HoldsUnits x k e) : x.isFinite = true := by
  change UnpackedFloat.isFinite x.toModel.unpack = true
  rw [hx, unpackedUnits]
  split <;> rfl

/-- Units have the place that they are worth. -/
theorem place?_eq (hx : HoldsUnits x k e) :
    (Decimal.Reading.ofFloat x).place? = some (toLex (0, (k * 2 ^ e : ℚ))) := by
  rw [Decimal.Reading.ofFloat_eq, hx]
  rcases eq_or_ne k 0 with rfl | hk
  · simp [unpackedUnits, Decimal.Reading.ofUnpacked, Decimal.Reading.place?,
      Decimal.Dyadic.value_eq]
  · have plus : (UnpackedFloat.Sign.positive == .negative) = false := rfl
    rw [unpackedUnits_of_ne_zero hk, Decimal.Reading.ofUnpacked, Decimal.Reading.place?,
      Decimal.Dyadic.value_eq, plus]
    have scaled : ((k * 2 ^ headroom k : ℕ) : ℚ) * 2 ^ (e - headroom k) = k * 2 ^ e := by
      push_cast
      rw [mul_assoc, ← zpow_natCast, ← zpow_add₀ two_ne_zero]
      congr 2
      omega
    rw [scaled, if_neg Bool.false_ne_true, one_mul]

end HoldsUnits

theorem holdsUnits_doubleOfInt {k : ℕ} (small : k < 2 ^ 53) :
    HoldsUnits (Number.doubleOfInt k) k 0 := by
  have whole : HoldsUnits k.toUInt64.toFloat k 0 := by
    change (Float.Model.pack (UnpackedFloat.ofNat Format.binary64 k.toUInt64.toNat)).unpack = _
    have inside : k.toUInt64.toNat = k := by
      change k % 2 ^ 64 = k
      omega
    rw [inside, UnpackedFloat.ofNat, UnpackedFloat.ofInt, UnpackedFloat.normalize]
    rcases eq_or_ne k 0 with rfl | hk
    · rfl
    · have positive : (0 : ℤ) < k := by omega
      have rounded := round_units (e := 0) hk small (by norm_num) 0
      rw [pow_zero, mul_one, Nat.cast_zero, sub_zero] at rounded
      rw [compare_gt_iff_gt.2 positive]
      dsimp only
      rw [Int.toNat_natCast, rounded]
      exact unpack_pack_units small (by decide)
  have one : HoldsUnits (Float.ofBits 0x3FF0000000000000) 1 0 := by
    rfl
  have product := whole.mul one (by rwa [mul_one]) (by decide)
  rw [mul_one, add_zero] at product
  have literal : Number.doubleOfInt k = k.toUInt64.toFloat * Float.ofBits 0x3FF0000000000000 := by
    rw [Number.doubleOfInt, if_neg (by omega)]
    change Float.ofScientific k false 0 = _
    rw [Float.ofScientific, dif_pos ⟨small, by norm_num⟩]
    rfl
  rwa [literal]

/-! ### Numbers that count units -/

namespace Number

/-- The double of a number holds some units of the size `2 ^ e`. -/
def CountsUnits (a : Number) (k : ℕ) (e : ℤ) : Prop :=
  ∃ x, a.double? = some x ∧ HoldsUnits x k e

theorem countsUnits_float {x : Float} {k : ℕ} {e : ℤ} (h : HoldsUnits x k e) :
    (Number.float x).CountsUnits k e :=
  ⟨x, rfl, h⟩

theorem countsUnits_natCast {k : ℕ} (small : k < 2 ^ 53) : (k : Number).CountsUnits k 0 := by
  have holds := holdsUnits_doubleOfInt small
  exact ⟨doubleOfInt k, Option.filter_some_pos holds.isFinite, holds⟩

section

variable {x y : Float} {a b : Number} {k l : ℕ} {e f : ℤ}

theorem exists_float_add (hx : HoldsUnits x k e) (hb : b.CountsUnits l e)
    (small : k + l < 2 ^ 53) (unit : UnitFits e) :
    ∃ z, Number.float x + b = .float z ∧ HoldsUnits z (k + l) e := by
  obtain ⟨y, double, hy⟩ := hb
  refine ⟨x + y, ?_, hx.add hy small unit⟩
  change rounding (· + ·) (.float x) b = _
  rw [rounding, double]
  rfl

theorem exists_mul_float (ha : a.CountsUnits k e) (hy : HoldsUnits y l f)
    (small : k * l < 2 ^ 53) (unit : UnitFits (e + f)) :
    ∃ z, a * Number.float y = .float z ∧ HoldsUnits z (k * l) (e + f) := by
  obtain ⟨x, double, hx⟩ := ha
  refine ⟨x * y, ?_, hx.mul hy small unit⟩
  have rounded : a * Number.float y = rounding (· * ·) a (.float y) := by
    cases a <;> rfl
  rw [rounded, rounding, double]
  rfl

/-- Adding from the left, from any double that holds units, is exact. -/
theorem exists_foldl_add {bs : List Number} {ls : List ℕ}
    (counts : List.Forall₂ (fun b l => b.CountsUnits l e) bs ls) (hx : HoldsUnits x k e)
    (small : k + ls.sum < 2 ^ 53) (unit : UnitFits e) :
    ∃ z, bs.foldl (· + ·) (.float x) = .float z ∧ HoldsUnits z (k + ls.sum) e := by
  induction counts generalizing x k with
  | nil => exact ⟨x, rfl, hx⟩
  | cons first _ ih =>
    rw [List.sum_cons, ← add_assoc] at small ⊢
    obtain ⟨y, sum, hy⟩ := exists_float_add hx first (by omega) unit
    rw [List.foldl_cons, sum]
    exact ih hy small

/-- What a run adds up from nothing stands where the exact sum does. -/
theorem place?_foldl_add {bs : List Number} {ls : List ℕ}
    (counts : List.Forall₂ (fun b l => b.CountsUnits l e) bs ls) (small : ls.sum < 2 ^ 53)
    (unit : UnitFits e) :
    (bs.foldl (· + ·) 0.0).place? = some (toLex (0, (ls.sum * 2 ^ e : ℚ))) := by
  have none : HoldsUnits 0.0 0 e := rfl
  obtain ⟨z, sum, hz⟩ := exists_foldl_add counts none (by rwa [zero_add]) unit
  rw [show (0.0 : Number) = .float 0.0 from rfl, sum, place?, hz.place?_eq, zero_add]

end

end Number

end ComplexityMeter
