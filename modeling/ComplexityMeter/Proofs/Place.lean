import Mathlib
import ComplexityMeter.Proofs.Order

/-!
# Numbers on a line

A number that has a value and is no NaN has a place on a line: whole numbers and finite doubles
stand at what they are worth, infinite doubles at either end. Numbers compare as their places do,
whatever they are written as, so they are ordered by value together.
-/

namespace ComplexityMeter

open Float.Model (Format UnpackedFloat)

namespace Decimal

/-! ### Values of doubles -/

def Dyadic.value (d : Dyadic) : ℚ :=
  d.numerator / d.fraction.2

theorem Dyadic.value_eq (d : Dyadic) :
    d.value = (if d.negative then -1 else 1) * (d.mantissa * 2 ^ d.exponent) := by
  have magnitude : (d.fraction.1 : ℚ) / d.fraction.2 = d.mantissa * 2 ^ d.exponent := by
    unfold fraction
    split
    · rename_i e exponent
      simp [exponent]
    · rename_i e exponent
      rw [exponent, zpow_negSucc]
      simp [div_eq_mul_inv]
  rw [← magnitude, value, numerator]
  split <;> simp [neg_div]

/-- Mantissa and exponent as a double stores them: only the least exponent leaves room for a
mantissa without its leading bit. -/
def Dyadic.IsStored (d : Dyadic) : Prop :=
  d.mantissa < 2 ^ 53 ∧ (d.exponent = -1074 ∨ 2 ^ 52 ≤ d.mantissa ∧ -1074 ≤ d.exponent)

theorem isStored_of_ofBits {bits : ℕ} {d : Dyadic} (h : Reading.ofBits bits = .finite d) :
    d.IsStored := by
  simp only [Reading.ofBits, Nat.pow_eq] at h
  split_ifs at h with full zero
  · obtain rfl := Reading.finite.inj h
    refine ⟨?_, .inl rfl⟩
    dsimp only
    omega
  · obtain rfl := Reading.finite.inj h
    refine ⟨?_, .inr ⟨?_, ?_⟩⟩ <;> dsimp only <;> omega

theorem Dyadic.magnitude_lt_iff {d e : Dyadic} (hd : d.IsStored) (he : e.IsStored) :
    (d.mantissa * 2 ^ d.exponent : ℚ) < e.mantissa * 2 ^ e.exponent
      ↔ d.exponent < e.exponent ∨ d.exponent = e.exponent ∧ d.mantissa < e.mantissa := by
  have less {a b : Dyadic} (ha : a.IsStored) (hb : b.IsStored) (below : a.exponent < b.exponent) :
      (a.mantissa * 2 ^ a.exponent : ℚ) < b.mantissa * 2 ^ b.exponent := by
    have leading : 2 ^ 52 ≤ b.mantissa := by
      rcases ha.2 with least | ⟨-, bounded⟩ <;> rcases hb.2 with least' | ⟨leading, -⟩ <;> omega
    calc (a.mantissa * 2 ^ a.exponent : ℚ)
        < 2 ^ 53 * 2 ^ a.exponent := by
          gcongr
          exact_mod_cast ha.1
      _ = 2 ^ 52 * 2 ^ (a.exponent + 1) := by
          rw [zpow_add_one₀ two_ne_zero]
          ring
      _ ≤ b.mantissa * 2 ^ b.exponent := by
          gcongr
          · exact_mod_cast leading
          · exact one_le_two
          · exact below
  rcases lt_trichotomy d.exponent e.exponent with below | same | above
  · exact iff_of_true (less hd he below) (.inl below)
  · rw [same, mul_lt_mul_iff_left₀ (by positivity)]
    simp
  · refine iff_of_false (less he hd above).le.not_gt ?_
    omega

/-! ### Places -/

/-- Where a double stands, infinite ones at the ends of the line. -/
def Reading.place? : Reading → Option (ℤ ×ₗ ℚ)
  | .finite d => some (toLex (0, d.value))
  | .infinite negative => some (toLex (if negative then -1 else 1, 0))
  | .nan => none

def Reading.ofUnpacked : UnpackedFloat → Reading
  | .notANumber => .nan
  | .infinity sign => .infinite (sign == .negative)
  | .zero sign => .finite ⟨sign == .negative, 0, -1074⟩
  | .finite sign mantissa exponent _ => .finite ⟨sign == .negative, mantissa, exponent⟩

theorem toNat_unpackExponent (bits : BitVec 64) :
    (@UnpackedFloat.unpackExponent Format.binary64 bits).toNat
      = bits.toNat / Nat.pow 2 52 % 2048 := by
  simp [UnpackedFloat.unpackExponent, Nat.shiftRight_eq_div_pow]

theorem toNat_unpackMantissa (bits : BitVec 64) :
    (@UnpackedFloat.unpackMantissa Format.binary64 bits).toNat = bits.toNat % Nat.pow 2 52 := by
  simp [UnpackedFloat.unpackMantissa]

theorem unpackSign_eq (bits : BitVec 64) :
    (UnpackedFloat.Sign.ofBitVec (@UnpackedFloat.unpackSign Format.binary64 bits) == .negative)
      = (bits.toNat / Nat.pow 2 63 % 2 == 1) := by
  have bit : (@UnpackedFloat.unpackSign Format.binary64 bits).toNat
      = bits.toNat / Nat.pow 2 63 % 2 := by
    unfold UnpackedFloat.unpackSign
    simp [Nat.shiftRight_eq_div_pow]
  rw [← bit]
  generalize @UnpackedFloat.unpackSign Format.binary64 bits = sign
  revert sign
  decide

theorem Reading.ofBits_eq (bits : BitVec 64) :
    Reading.ofBits bits.toNat = .ofUnpacked (UnpackedFloat.unpack Format.binary64 bits) := by
  have full : (@UnpackedFloat.unpackExponent Format.binary64 bits).toNat = 2047
      ↔ @UnpackedFloat.unpackExponent Format.binary64 bits = -1#11 := BitVec.toNat_inj (y := -1#11)
  have least : (@UnpackedFloat.unpackExponent Format.binary64 bits).toNat = 0
      ↔ @UnpackedFloat.unpackExponent Format.binary64 bits = 0#11 := BitVec.toNat_inj (y := 0#11)
  have zero : (@UnpackedFloat.unpackMantissa Format.binary64 bits).toNat = 0
      ↔ @UnpackedFloat.unpackMantissa Format.binary64 bits = 0#52 := BitVec.toNat_inj (y := 0#52)
  have leading : (1#1 ++ @UnpackedFloat.unpackMantissa Format.binary64 bits).toNat
      = (@UnpackedFloat.unpackMantissa Format.binary64 bits).toNat + Nat.pow 2 52 := by
    rw [BitVec.toNat_append, Nat.add_comm, Nat.shiftLeft_eq, Nat.mul_comm]
    exact (Nat.two_pow_add_eq_or_of_lt (BitVec.isLt _) 1).symm
  unfold UnpackedFloat.unpack
  conv_lhs =>
    simp only [Reading.ofBits, ← unpackSign_eq, ← toNat_unpackMantissa, ← toNat_unpackExponent,
      full, least, zero]
  dsimp only
  by_cases infinite : @UnpackedFloat.unpackExponent Format.binary64 bits = -1#11
  · rw [if_pos infinite, if_pos infinite]
    by_cases plain : @UnpackedFloat.unpackMantissa Format.binary64 bits = 0#52
    · rw [if_pos plain, if_pos plain]
      rfl
    · rw [if_neg plain, if_neg plain]
      rfl
  · rw [if_neg infinite, if_neg infinite]
    by_cases biased : @UnpackedFloat.unpackExponent Format.binary64 bits = 0#11
    · rw [if_pos biased, if_pos biased]
      by_cases plain : @UnpackedFloat.unpackMantissa Format.binary64 bits = 0#52
      · rw [dif_pos plain, plain]
        rfl
      · rw [dif_neg plain, ofUnpacked]
        simp [biased, Format.exponentBias]
    · rw [if_neg biased, if_neg biased, ofUnpacked, leading]
      simp [Format.exponentBias]

theorem Reading.ofFloat_eq (x : Float) :
    Reading.ofFloat x = .ofUnpacked x.toModel.unpack :=
  Reading.ofBits_eq x.toBits.toBitVec

/-- Doubles are ranked as their places are. -/
theorem rank_lt_iff {a b : UnpackedFloat} {p q : ℤ ×ₗ ℚ}
    (ha : (Reading.ofUnpacked a).place? = some p) (hb : (Reading.ofUnpacked b).place? = some q)
    (sa : ∀ d, Reading.ofUnpacked a = .finite d → d.IsStored)
    (sb : ∀ d, Reading.ofUnpacked b = .finite d → d.IsStored) :
    rank a < rank b ↔ p < q := by
  have plus : (UnpackedFloat.Sign.positive == .negative) = false := rfl
  rcases a with (_ | _) | _ | _ | ⟨(_ | _), m, e, hm⟩ <;>
  rcases b with (_ | _) | _ | _ | ⟨(_ | _), m', e', hm'⟩ <;>
  simp only [Reading.ofUnpacked, Reading.place?, Option.some.injEq, reduceCtorEq] at ha hb <;>
  subst ha hb <;>
  simp [rank, Prod.Lex.toLex_lt_toLex, Dyadic.value_eq, plus]
  case zero.finite.negative => positivity
  case zero.finite.positive => positivity
  case finite.negative.zero => positivity
  case finite.positive.zero => positivity
  case finite.negative.finite.positive =>
    exact (neg_neg_of_pos (by positivity)).trans (by positivity)
  case finite.positive.finite.negative =>
    exact (neg_nonpos_of_nonneg (by positivity)).trans (by positivity)
  case finite.negative.finite.negative =>
    rw [eq_comm (a := e)]
    exact (Dyadic.magnitude_lt_iff (sb _ rfl) (sa _ rfl)).symm
  case finite.positive.finite.positive =>
    exact (Dyadic.magnitude_lt_iff (sa _ rfl) (sb _ rfl)).symm

end Decimal

/-! ### Doubles among themselves -/

theorem beq_iff_rank_eq {a b : UnpackedFloat} (ha : a ≠ .notANumber) (hb : b ≠ .notANumber) :
    a.beq b = true ↔ rank a = rank b := by
  have same (s : UnpackedFloat.Sign) : compare s s = .eq := by cases s <;> rfl
  have signs : compare UnpackedFloat.Sign.negative UnpackedFloat.Sign.positive = .lt := rfl
  have signs' : compare UnpackedFloat.Sign.positive UnpackedFloat.Sign.negative = .gt := rfl
  rcases a with (_ | _) | _ | _ | ⟨(_ | _), m, e, _⟩ <;>
  rcases b with (_ | _) | _ | _ | ⟨(_ | _), m', e', _⟩ <;> try contradiction
  all_goals
    unfold UnpackedFloat.beq UnpackedFloat.compare rank
    simp [same, signs, signs']

theorem double_beq_iff {x y : Float} (hx : x.isNaN = false) (hy : y.isNaN = false) :
    (x == y) = true ↔ rank x.toModel.unpack = rank y.toModel.unpack := by
  have equal : (x == y) = x.toModel.unpack.beq y.toModel.unpack := rfl
  rw [equal, beq_iff_rank_eq (unpack_ne_notANumber hx) (unpack_ne_notANumber hy)]


open Decimal (Reading)

theorem notANumber_of_place? {x : Float} {p : ℤ ×ₗ ℚ} (h : (Reading.ofFloat x).place? = some p) :
    x.isNaN = false := by
  cases nan : x.isNaN with
  | false => rfl
  | true =>
    rw [reading_eq_nan_iff.2 nan] at h
    cases h

section

variable {x y : Float} {p q : ℤ ×ₗ ℚ} (hx : (Reading.ofFloat x).place? = some p)
  (hy : (Reading.ofFloat y).place? = some q)
include hx hy

theorem double_lt_iff_place : x < y ↔ p < q := by
  rw [double_lt_iff (notANumber_of_place? hx) (notANumber_of_place? hy)]
  rw [Reading.ofFloat_eq] at hx hy
  refine Decimal.rank_lt_iff hx hy (fun d stored => ?_) fun d stored => ?_
  all_goals
    rw [← Reading.ofFloat_eq] at stored
    exact Decimal.isStored_of_ofBits stored

theorem double_beq_iff_place : (x == y) = true ↔ p = q := by
  have hx' := notANumber_of_place? hx
  have hy' := notANumber_of_place? hy
  rw [double_beq_iff hx' hy', eq_iff_le_not_lt, ← not_lt, ← double_lt_iff hy' hx',
    ← double_lt_iff hx' hy', double_lt_iff_place hx hy, double_lt_iff_place hy hx, not_lt,
    ← eq_iff_le_not_lt]

theorem compareDoubles_eq : Number.compareDoubles x y = some (compare p q) := by
  rw [Number.compareDoubles]
  simp only [double_lt_iff_place hx hy, double_lt_iff_place hy hx, double_beq_iff_place hx hy]
  rcases lt_trichotomy p q with below | same | above
  · rw [if_pos below, compare_lt_iff_lt.2 below]
  · rw [if_neg same.not_lt, if_neg same.not_gt, if_pos same, compare_eq_iff_eq.2 same]
  · rw [if_neg above.not_gt, if_pos above, compare_gt_iff_gt.2 above]

end

theorem compareDoubles_eq_none {x y : Float} (nan : x.isNaN = true ∨ y.isNaN = true) :
    Number.compareDoubles x y = none := by
  have unpacked {z : Float} (h : z.isNaN = true) : z.toModel.unpack = .notANumber := by
    change UnpackedFloat.isNaN z.toModel.unpack = true at h
    cases hz : z.toModel.unpack with
    | notANumber => rfl
    | _ => rw [hz] at h; cases h
  have less {a b : Float} (h : a.isNaN = true ∨ b.isNaN = true) : ¬ a < b := by
    intro below
    have below : a.toModel.unpack.lt b.toModel.unpack = true := of_decide_eq_true below
    rcases h with h | h <;> rw [unpacked h] at below
    · cases below
    · cases ha : a.toModel.unpack <;> rw [ha] at below <;> cases below
  have equal : (x == y) = false := by
    change x.toModel.unpack.beq y.toModel.unpack = false
    rcases nan with h | h <;> rw [unpacked h]
    · rfl
    · cases x.toModel.unpack <;> rfl
  rw [Number.compareDoubles, if_neg (less nan), if_neg (less nan.symm), equal]
  rfl

/-! ### All numbers -/

namespace Number

def place? : Number → Option (ℤ ×ₗ ℚ)
  | .int n => some (toLex (0, n))
  | .float x => (Reading.ofFloat x).place?
  | .overflow => none

/-- The number has a value and is no NaN. -/
def IsPlaced (x : Number) : Prop :=
  x.hasValue = true ∧ x.isNaN = false

instance : DecidablePred IsPlaced :=
  fun x => inferInstanceAs (Decidable (x.hasValue = true ∧ x.isNaN = false))

theorem IsPlaced.exists_place {x : Number} (h : x.IsPlaced) : ∃ p, x.place? = some p := by
  cases x with
  | int n => exact ⟨_, rfl⟩
  | float x =>
    rw [place?]
    cases reading : Reading.ofFloat x with
    | finite d => exact ⟨_, rfl⟩
    | infinite negative => exact ⟨_, rfl⟩
    | nan =>
      have nan : x.isNaN = true := reading_eq_nan_iff.1 reading
      exact absurd (nan.symm.trans h.2) (by decide)
  | overflow => exact absurd h.1 (by decide)

theorem compare_congr {κ κ' : Type} [LinearOrder κ] [LinearOrder κ'] {a b : κ} {p q : κ'}
    (below : a < b ↔ p < q) (above : b < a ↔ q < p) : compare a b = compare p q := by
  rcases lt_trichotomy a b with less | same | more
  · rw [compare_lt_iff_lt.2 less, compare_lt_iff_lt.2 (below.1 less)]
  · have tie : p = q := le_antisymm (not_lt.1 (above.not.1 same.not_gt))
      (not_lt.1 (below.not.1 same.not_lt))
    rw [compare_eq_iff_eq.2 same, compare_eq_iff_eq.2 tie]
  · rw [compare_gt_iff_gt.2 more, compare_gt_iff_gt.2 (above.1 more)]

theorem compareInt_eq {n : ℤ} {r : Reading} {q : ℤ ×ₗ ℚ} (h : r.place? = some q) :
    r.compareInt n = some (compare (toLex (0, (n : ℚ))) q) := by
  cases r with
  | nan => cases h
  | infinite negative =>
    obtain rfl := Option.some.inj h
    cases negative
    · exact congrArg some (compare_lt_iff_lt.2 (by simp [Prod.Lex.toLex_lt_toLex])).symm
    · exact congrArg some (compare_gt_iff_gt.2 (by simp [Prod.Lex.toLex_lt_toLex])).symm
  | finite d =>
    obtain rfl := Option.some.inj h
    have positive : (0 : ℚ) < d.fraction.2 := by exact_mod_cast d.fraction_denominator_pos
    refine congrArg some (compare_congr ?below ?above)
    case below =>
      simp only [Prod.Lex.toLex_lt_toLex, lt_self_iff_false, true_and, false_or]
      rw [Decimal.Dyadic.value, lt_div_iff₀ positive]
      exact_mod_cast Iff.rfl
    case above =>
      simp only [Prod.Lex.toLex_lt_toLex, lt_self_iff_false, true_and, false_or]
      rw [Decimal.Dyadic.value, div_lt_iff₀ positive]
      exact_mod_cast Iff.rfl

theorem compare?_eq {a b : Number} {p q : ℤ ×ₗ ℚ} (ha : a.place? = some p)
    (hb : b.place? = some q) : a.compare? b = some (compare p q) := by
  cases a with
  | overflow => cases ha
  | int m =>
    obtain rfl := Option.some.inj ha
    cases b with
    | overflow => cases hb
    | int n =>
      obtain rfl := Option.some.inj hb
      exact congrArg some (compare_congr (by simp [Prod.Lex.toLex_lt_toLex])
        (by simp [Prod.Lex.toLex_lt_toLex]))
    | float y => exact compareInt_eq hb
  | float x =>
    cases b with
    | overflow => cases hb
    | int n =>
      obtain rfl := Option.some.inj hb
      rw [compare?, compareInt_eq ha, Option.map_some]
      exact congrArg some Std.OrientedCmp.eq_swap.symm
    | float y => exact compareDoubles_eq ha hb

theorem lt_iff_place {a b : Number} {p q : ℤ ×ₗ ℚ} (ha : a.place? = some p)
    (hb : b.place? = some q) : a < b ↔ p < q := by
  change (a.compare? b == some .lt) = true ↔ _
  rw [compare?_eq ha hb, ← compare_lt_iff_lt]
  simp

theorem le_iff_place {a b : Number} {p q : ℤ ×ₗ ℚ} (ha : a.place? = some p)
    (hb : b.place? = some q) : a ≤ b ↔ p ≤ q := by
  change (a.compare? b == some .lt || a.compare? b == some .eq) = true ↔ _
  rw [compare?_eq ha hb, le_iff_lt_or_eq, ← compare_lt_iff_lt]
  simp [compare_eq_iff_eq]

/-- Only numbers that have a place compare. -/
theorem isPlaced_of_le {a b : Number} (h : a ≤ b) : a.IsPlaced ∧ b.IsPlaced := by
  have compared : a.compare? b ≠ none := by
    intro none
    change (a.compare? b == some .lt || a.compare? b == some .eq) = true at h
    rw [none] at h
    cases h
  have reading {x : Float} (h : Reading.ofFloat x ≠ .nan) : (Number.float x).IsPlaced :=
    ⟨rfl, Bool.eq_false_iff.2 (reading_eq_nan_iff.not.1 h)⟩
  cases a with
  | overflow => exact absurd rfl compared
  | int m =>
    refine ⟨⟨rfl, rfl⟩, ?_⟩
    cases b with
    | overflow => exact absurd rfl compared
    | int n => exact ⟨rfl, rfl⟩
    | float y =>
      refine reading fun nan => compared ?_
      rw [compare?, nan]
      rfl
  | float x =>
    cases b with
    | overflow => exact absurd rfl compared
    | int n =>
      refine ⟨reading fun nan => compared ?_, rfl, rfl⟩
      rw [compare?, nan]
      rfl
    | float y =>
      refine ⟨reading fun nan => compared ?_, reading fun nan => compared ?_⟩
      · exact compareDoubles_eq_none (.inl (reading_eq_nan_iff.1 nan))
      · exact compareDoubles_eq_none (.inr (reading_eq_nan_iff.1 nan))

/-- All numbers with a value compare, but for NaN. -/
theorem comparable : Scalar.Comparable IsPlaced where
  irrefl a ha := by
    obtain ⟨p, hp⟩ := ha.exists_place
    rw [lt_iff_place hp hp]
    exact lt_irrefl p
  trans ha hb hc := by
    obtain ⟨p, hp⟩ := ha.exists_place
    obtain ⟨q, hq⟩ := hb.exists_place
    obtain ⟨r, hr⟩ := hc.exists_place
    rw [lt_iff_place hp hq, lt_iff_place hq hr, lt_iff_place hp hr]
    exact lt_trans
  apart ha hc below b hb := by
    obtain ⟨p, hp⟩ := ha.exists_place
    obtain ⟨q, hq⟩ := hb.exists_place
    obtain ⟨r, hr⟩ := hc.exists_place
    rw [lt_iff_place hp hr] at below
    rw [lt_iff_place hp hq, lt_iff_place hq hr]
    exact below.gt_or_lt q
  le_iff ha hb := by
    obtain ⟨p, hp⟩ := ha.exists_place
    obtain ⟨q, hq⟩ := hb.exists_place
    rw [le_iff_place hp hq, lt_iff_place hq hp, not_lt]

end Number

end ComplexityMeter
