import LiveExpr.Proofs.Number.Unpacked

/-!
The exact value of a finite number as a rational. The magnitude that its bits are read as has this value, its integer
part is the value without its fraction, and it compares with zero as the value does.
-/

namespace LiveExpr.Number

open Float.Model (UnpackedFloat Format)
open Float.Model.UnpackedFloat (Sign unpackSign unpackExponent unpackMantissa)

/-! ## The fields of a number -/

def signField (x : Float) : BitVec 1 :=
  @unpackSign .binary64 x.toBits.toBitVec

def exponentField (x : Float) : BitVec 11 :=
  @unpackExponent .binary64 x.toBits.toBitVec

def mantissaField (x : Float) : BitVec 52 :=
  @unpackMantissa .binary64 x.toBits.toBitVec

theorem toNat_signField (x : Float) : (signField x).toNat = (x.toBits >>> 63).toNat := by
  simp only [signField, unpackSign, BitVec.toNat_cast, BitVec.extractLsb_toNat, UInt64.toNat_shiftRight]
  apply Nat.mod_eq_of_lt
  change x.toBits.toNat >>> 63 < 2
  rw [Nat.shiftRight_eq_div_pow, Nat.div_lt_iff_lt_mul (by decide)]
  exact x.toBits.toNat_lt

theorem toNat_exponentField (x : Float) : (exponentField x).toNat = ((x.toBits >>> 52) &&& 0x7FF).toNat := by
  simp only [exponentField, unpackExponent, BitVec.toNat_cast, BitVec.extractLsb_toNat, UInt64.toNat_and,
    UInt64.toNat_shiftRight]
  exact (Nat.and_two_pow_sub_one_eq_mod _ 11).symm

theorem toNat_mantissaField (x : Float) : (mantissaField x).toNat = (x.toBits &&& 0xFFFFFFFFFFFFF).toNat := by
  simp only [mantissaField, unpackMantissa, BitVec.toNat_cast, BitVec.extractLsb_toNat, UInt64.toNat_and]
  exact (Nat.and_two_pow_sub_one_eq_mod _ 52).symm

theorem isNegative_iff (x : Float) : isNegative x = true ↔ Sign.ofBitVec (signField x) = .negative := by
  have one : isNegative x = true ↔ (x.toBits >>> 63).toNat = 1 := by
    rw [isNegative, beq_iff_eq, ← UInt64.toNat_inj]
    rfl
  rw [one, ← toNat_signField]
  rcases BitVec.eq_zero_or_eq_one (signField x) with zero | one
  · simp [zero, Sign.ofBitVec]
  · simp [one, Sign.ofBitVec]

theorem ofFloat_subnormal {x : Float} (least : exponentField x = 0) :
    Magnitude.ofFloat x = ⟨(mantissaField x).toNat, -1074, false⟩ := by
  have biased : ((x.toBits >>> 52) &&& 0x7FF).toNat = 0 := by
    rw [← toNat_exponentField, least]
    rfl
  simp only [Magnitude.ofFloat, biased, beq_self_eq_true, if_true, toNat_mantissaField]

theorem ofFloat_normal {x : Float} (normal : exponentField x ≠ 0) :
    (Magnitude.ofFloat x).significand = 4503599627370496 + (mantissaField x).toNat ∧
      (Magnitude.ofFloat x).exponent = (exponentField x).toNat - 1075 := by
  have biased : ((x.toBits >>> 52) &&& 0x7FF).toNat ≠ 0 := by
    rw [← toNat_exponentField]
    exact fun zero => normal (BitVec.eq_of_toNat_eq zero)
  simp only [Magnitude.ofFloat, beq_iff_eq, if_neg biased, toNat_exponentField, toNat_mantissaField, and_self]

theorem toNat_append_one (fraction : BitVec 52) : (1#1 ++ fraction).toNat = 4503599627370496 + fraction.toNat := by
  rw [BitVec.toNat_append, ← Nat.shiftLeft_add_eq_or_of_lt fraction.isLt]
  rfl

theorem unpacked_eq (x : Float) : unpacked x =
    if exponentField x = -1#11 then
      if mantissaField x = 0#52 then .infinity (Sign.ofBitVec (signField x)) else .notANumber
    else if exponentField x = 0#11 then
      if empty : mantissaField x = 0#52 then .zero (Sign.ofBitVec (signField x))
      else .finite (Sign.ofBitVec (signField x)) (mantissaField x).toNat ((exponentField x).toNat - 1075 + 1)
        (by simpa [BitVec.toNat_pos, BitVec.pos_iff_ne_zero])
    else .finite (Sign.ofBitVec (signField x)) (1#1 ++ mantissaField x).toNat ((exponentField x).toNat - 1075)
      (by rw [toNat_append_one]; omega) := rfl

/-- What the bits of a finite number stand for, by its magnitude. -/
theorem unpacked_of_isFinite {x : Float} (finite : x.isFinite = true) :
    ∃ sign : Sign, (sign = .negative ↔ isNegative x = true) ∧
      ((Magnitude.ofFloat x).significand = 0 ∧ unpacked x = .zero sign ∨
        ∃ positive, unpacked x =
          .finite sign (Magnitude.ofFloat x).significand (Magnitude.ofFloat x).exponent positive) := by
  refine ⟨_, (isNegative_iff x).symm, ?_⟩
  have known : (unpacked x).isFinite = true := finite
  rw [unpacked_eq] at known ⊢
  by_cases top : exponentField x = -1#11
  · rw [if_pos top] at known
    split at known <;> cases known
  rw [if_neg top]
  by_cases bottom : exponentField x = 0#11
  · rw [if_pos bottom, ofFloat_subnormal bottom, bottom]
    by_cases empty : mantissaField x = 0#52
    · rw [dif_pos empty, empty]
      exact .inl ⟨rfl, rfl⟩
    · rw [dif_neg empty]
      exact .inr ⟨_, rfl⟩
  · obtain ⟨significand, exponent⟩ := ofFloat_normal bottom
    rw [← toNat_append_one] at significand
    rw [if_neg bottom, significand, exponent]
    exact .inr ⟨_, rfl⟩

/-! ## The value -/

/-- The exact value of a number. NaN and the infinities have none; zero stands for it. -/
def value (x : Float) : ℚ :=
  match unpacked x with
  | .finite sign mantissa exponent _ => sign.apply mantissa * 2 ^ exponent
  | _ => 0

/-- The integer that remains when the fraction is cut off. -/
def truncated (x : ℚ) : ℤ :=
  if 0 ≤ x then ⌊x⌋ else ⌈x⌉

/-- The size of a finite number, without its sign. -/
def Magnitude.value (x : Magnitude) : ℚ :=
  x.significand * 2 ^ x.exponent

theorem value_of_isFinite {x : Float} (finite : x.isFinite = true) :
    value x = if isNegative x then -(Magnitude.ofFloat x).value else (Magnitude.ofFloat x).value := by
  obtain ⟨sign, same, ⟨zero, number⟩ | ⟨positive, number⟩⟩ := unpacked_of_isFinite finite
  · simp [value, number, Magnitude.value, zero]
  · simp only [value, number, Magnitude.value]
    cases sign with
    | negative => simp [same.mp rfl, Sign.apply]
    | positive =>
      rw [if_neg fun negative => nomatch same.mpr negative]
      simp [Sign.apply]

theorem Magnitude.floor_value (x : Magnitude) : ⌊x.value⌋ = x.whole := by
  unfold Magnitude.value Magnitude.whole
  rcases le_total 0 x.exponent with large | small
  · obtain ⟨power, exponent⟩ := Int.eq_ofNat_of_zero_le large
    rw [exponent]
    have none : (-(power : ℤ)).toNat = 0 := by omega
    rw [none, Nat.shiftRight_zero, Int.toNat_natCast, Nat.shiftLeft_eq, zpow_natCast]
    exact_mod_cast Int.floor_natCast (x.significand * 2 ^ power)
  · obtain ⟨power, exponent⟩ := Int.eq_ofNat_of_zero_le (neg_nonneg.mpr small)
    have none : x.exponent.toNat = 0 := by omega
    rw [none, Nat.shiftLeft_zero, exponent, Int.toNat_natCast, Nat.shiftRight_eq_div_pow, ← neg_neg x.exponent,
      exponent, zpow_neg, zpow_natCast, ← div_eq_mul_inv]
    simpa using Rat.floor_intCast_div_natCast x.significand (2 ^ power)

theorem truncated_neg (x : ℚ) : truncated (-x) = -truncated x := by
  unfold truncated
  rcases lt_trichotomy x 0 with negative | rfl | positive
  · rw [if_pos (by linarith), if_neg (by linarith), Int.floor_neg]
  · simp
  · rw [if_neg (by linarith), if_pos positive.le, Int.ceil_neg]

theorem truncated_nonneg {x : ℚ} (nonneg : 0 ≤ x) : 0 ≤ truncated x := by
  rw [truncated, if_pos nonneg]
  exact Int.floor_nonneg.mpr nonneg

theorem truncated_nonpos {x : ℚ} (nonpos : x ≤ 0) : truncated x ≤ 0 := by
  have opposite := truncated_nonneg (neg_nonneg.mpr nonpos)
  rw [truncated_neg] at opposite
  omega

theorem truncated_neg_of_le {x : ℚ} (le : x ≤ -1) : truncated x < 0 := by
  have negative : ¬0 ≤ x := by linarith
  rw [truncated, if_neg negative]
  have ceiling : ⌈x⌉ ≤ -1 := Int.ceil_le.mpr (by exact_mod_cast le)
  omega

theorem integerPart?_eq {x : Float} (finite : x.isFinite = true) : integerPart? x = some (truncated (value x)) := by
  have unsigned : truncated (Magnitude.ofFloat x).value = (Magnitude.ofFloat x).whole := by
    have nonneg : 0 ≤ (Magnitude.ofFloat x).value := mul_nonneg (Nat.cast_nonneg _) (zpow_nonneg zero_le_two _)
    rw [truncated, if_pos nonneg, Magnitude.floor_value]
  simp only [integerPart?, if_pos finite, value_of_isFinite finite]
  split
  · rw [truncated_neg, unsigned]
  · rw [unsigned]

/-! ## Comparison with zero -/

theorem compare_zero {x : Float} (finite : x.isFinite = true) :
    (unpacked x).compare (unpacked 0.0) = some (compare (value x) 0) := by
  have known : (unpacked x).isFinite = true := finite
  have origin : unpacked 0.0 = .zero .positive := rfl
  rw [origin, value]
  generalize unpacked x = number at *
  cases number with
  | notANumber | infinity => cases known
  | zero => simp [UnpackedFloat.compare]
  | finite sign mantissa exponent positive =>
    have size : (0 : ℚ) < mantissa * 2 ^ exponent :=
      mul_pos (Nat.cast_pos.mpr positive) (zpow_pos zero_lt_two exponent)
    cases sign with
    | negative =>
      have negative : -(mantissa * 2 ^ exponent : ℚ) < 0 := neg_neg_of_pos size
      simp [UnpackedFloat.compare, Sign.apply, compare_lt_iff_lt.mpr negative]
    | positive => simp [UnpackedFloat.compare, Sign.apply, compare_gt_iff_gt.mpr size]

theorem lt_zero_iff {x : Float} (finite : x.isFinite = true) : x < 0.0 ↔ value x < 0 := by
  rw [lt_iff, compare_zero finite, Option.some.injEq, compare_lt_iff_lt]

theorem zero_lt_iff {x : Float} (finite : x.isFinite = true) : 0.0 < x ↔ 0 < value x := by
  rw [lt_iff, compare_swap (unpacked x), compare_zero finite, Option.map_some, Option.some.injEq, Ordering.swap_eq_lt,
    compare_gt_iff_gt]

theorem larger_zero {x : Float} (finite : x.isFinite = true) :
    larger x 0.0 = if 0 < value x then x else 0.0 := by
  have number : ¬x.isNaN = true := by
    rw [isNaN_iff]
    intro nan
    have known : (unpacked x).isFinite = true := finite
    rw [nan] at known
    cases known
  have origin : ¬(0.0 : Float).isNaN = true := nofun
  simp only [larger, if_neg number, if_neg origin, gt_iff_lt, zero_lt_iff finite]

end LiveExpr.Number
