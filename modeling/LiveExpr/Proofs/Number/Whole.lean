import LiveExpr.Proofs.Number.Value

/-!
Whole numbers. No bit of a positive whole number stands for less than one, so nothing is lost when the fraction is cut
off.
-/

namespace LiveExpr.Number

open Float.Model (UnpackedFloat)

theorem sub_self_of_isFinite {x : Float} (finite : x.isFinite = true) : (x - x == 0.0) = true := by
  have zero : UnpackedFloat.sub .binary64 (unpacked x) (unpacked x) = .zero .positive := by
    have known : (unpacked x).isFinite = true := finite
    generalize unpacked x = number at *
    cases number with
    | notANumber | infinity => cases known
    | zero sign => cases sign <;> rfl
    | finite sign mantissa exponent positive =>
      simp only [UnpackedFloat.sub, Int.sub_self]
      rfl
  have same : x - x = 0.0 := by
    apply eq_of_unpacked
    change (Float.Model.pack (UnpackedFloat.sub .binary64 (unpacked x) (unpacked x))).unpack = _
    rw [zero]
    rfl
  rw [same]
  rfl

theorem shiftLeft_shiftRight_of_dvd {bits : UInt64} {count : Nat} (small : count < 64)
    (clear : 2 ^ count ∣ bits.toNat) : (bits >>> UInt64.ofNat count) <<< UInt64.ofNat count = bits := by
  have word : count < UInt64.size := Nat.lt_trans small (by decide)
  have counted : (UInt64.ofNat count).toNat % 64 = count := by
    rw [UInt64.toNat_ofNat_of_lt' word, Nat.mod_eq_of_lt small]
  rw [← UInt64.toNat_inj, UInt64.toNat_shiftLeft, UInt64.toNat_shiftRight, counted, Nat.shiftRight_eq_div_pow,
    Nat.shiftLeft_eq, Nat.div_mul_cancel clear]
  exact Nat.mod_eq_of_lt bits.toNat_lt

section Whole

variable {x : Float} (finite : x.isFinite = true) {whole : Nat} (positive : 1 ≤ whole) (same : value x = whole)

include finite positive same

theorem isNegative_of_whole : isNegative x = false := by
  rw [Bool.eq_false_iff]
  intro negative
  have size : 0 ≤ (Magnitude.ofFloat x).value := mul_nonneg (Nat.cast_nonneg _) (zpow_nonneg zero_le_two _)
  rw [value_of_isFinite finite, if_pos negative] at same
  have counted : (1 : ℚ) ≤ whole := Nat.one_le_cast.mpr positive
  linarith

/-- The exponent of a positive whole number is not negative, and its mantissa with the leading bit is the number without
the factors of two that the exponent stands for. -/
theorem fields_of_whole :
    1023 ≤ (exponentField x).toNat ∧
      ((4503599627370496 + (mantissaField x).toNat : Nat) : ℚ) * 2 ^ ((exponentField x).toNat - 1075 : ℤ) = whole := by
  have counted : (1 : ℚ) ≤ whole := Nat.one_le_cast.mpr positive
  have bounded : (mantissaField x).toNat < 4503599627370496 := (mantissaField x).isLt
  have notNegative : ¬isNegative x = true := Bool.eq_false_iff.mp (isNegative_of_whole finite positive same)
  rw [value_of_isFinite finite, if_neg notNegative] at same
  by_cases least : exponentField x = 0
  · rw [ofFloat_subnormal least] at same
    have small : ((mantissaField x).toNat : ℚ) < 4503599627370496 := by exact_mod_cast bounded
    have tiny : ((2 : ℚ) ^ (-1074 : ℤ)) ≤ 2 ^ (-52 : ℤ) := zpow_le_zpow_right₀ one_le_two (by decide)
    have below : ((mantissaField x).toNat : ℚ) * 2 ^ (-1074 : ℤ) < 1 := by
      calc ((mantissaField x).toNat : ℚ) * 2 ^ (-1074 : ℤ)
        _ ≤ (mantissaField x).toNat * 2 ^ (-52 : ℤ) := mul_le_mul_of_nonneg_left tiny (Nat.cast_nonneg _)
        _ < 4503599627370496 * 2 ^ (-52 : ℤ) := mul_lt_mul_of_pos_right small (zpow_pos zero_lt_two _)
        _ = 1 := by norm_num
    have contrary : ((mantissaField x).toNat : ℚ) * 2 ^ (-1074 : ℤ) = whole := same
    linarith
  · obtain ⟨significand, exponent⟩ := ofFloat_normal least
    rw [Magnitude.value, significand, exponent] at same
    refine ⟨Nat.le_of_not_lt fun low => ?_, same⟩
    have small : ((4503599627370496 + (mantissaField x).toNat : Nat) : ℚ) < 9007199254740992 := by
      exact_mod_cast (by omega : 4503599627370496 + (mantissaField x).toNat < 9007199254740992)
    have tiny : ((2 : ℚ) ^ ((exponentField x).toNat - 1075 : ℤ)) ≤ 2 ^ (-53 : ℤ) :=
      zpow_le_zpow_right₀ one_le_two (by omega)
    have below : ((4503599627370496 + (mantissaField x).toNat : Nat) : ℚ) *
        2 ^ ((exponentField x).toNat - 1075 : ℤ) < 1 := by
      calc ((4503599627370496 + (mantissaField x).toNat : Nat) : ℚ) * 2 ^ ((exponentField x).toNat - 1075 : ℤ)
        _ ≤ (4503599627370496 + (mantissaField x).toNat : Nat) * 2 ^ (-53 : ℤ) :=
          mul_le_mul_of_nonneg_left tiny (Nat.cast_nonneg _)
        _ < 9007199254740992 * 2 ^ (-53 : ℤ) := mul_lt_mul_of_pos_right small (zpow_pos zero_lt_two _)
        _ = 1 := by norm_num
    linarith

/-- As many bits at the end are clear as the exponent leaves for a fraction. -/
theorem dvd_toBits_of_whole : 2 ^ (1075 - (exponentField x).toNat) ∣ x.toBits.toNat := by
  obtain ⟨large, product⟩ := fields_of_whole finite positive same
  generalize places : 1075 - (exponentField x).toNat = count
  rcases Nat.eq_zero_or_pos count with rfl | some
  · exact Nat.one_dvd _
  have few : count ≤ 52 := by omega
  have exponent : ((exponentField x).toNat - 1075 : ℤ) = -(count : ℤ) := by omega
  have factored : 4503599627370496 + (mantissaField x).toNat = whole * 2 ^ count := by
    rw [exponent, zpow_neg, zpow_natCast, ← div_eq_mul_inv, div_eq_iff (by positivity)] at product
    exact_mod_cast product
  have leading : 2 ^ count ∣ 4503599627370496 := pow_dvd_pow 2 few
  have low : 2 ^ count ∣ (mantissaField x).toNat := by
    rw [← Nat.dvd_add_right leading, factored]
    exact Nat.dvd_mul_left _ _
  have lowest : (mantissaField x).toNat = x.toBits.toNat % 2 ^ 52 := by
    rw [toNat_mantissaField, UInt64.toNat_and]
    exact Nat.and_two_pow_sub_one_eq_mod _ 52
  rw [lowest] at low
  exact (Nat.dvd_mod_iff (pow_dvd_pow 2 few)).mp low

theorem truncate_of_whole : truncate x = x := by
  have large := (fields_of_whole finite positive same).1
  have clear := dvd_toBits_of_whole finite positive same
  rw [toNat_exponentField] at large clear
  unfold truncate
  dsimp only
  rw [if_neg (Nat.not_lt.mpr large), shiftLeft_shiftRight_of_dvd (by omega) clear, Float.ofBits_toBits]

theorem fraction_of_whole : (fraction x == 0.0) = true := by
  rw [fraction, truncate_of_whole finite positive same]
  exact sub_self_of_isFinite finite

theorem one_le_of_whole : 1.0 ≤ x := by
  have large := (fields_of_whole finite positive same).1
  have normal : exponentField x ≠ 0 := by
    rintro zero
    rw [zero] at large
    cases large
  have notNegative := isNegative_of_whole finite positive same
  have one : unpacked 1.0 = .finite .positive 4503599627370496 (-52) (by decide) := rfl
  obtain ⟨significand, exponent⟩ := ofFloat_normal normal
  obtain ⟨sign, negative, ⟨zero, -⟩ | ⟨some, number⟩⟩ := unpacked_of_isFinite finite
  · omega
  · rw [le_iff, one, number]
    cases sign with
    | negative => exact absurd (negative.mp rfl) (Bool.eq_false_iff.mp notNegative)
    | positive =>
      simp only [UnpackedFloat.le, UnpackedFloat.compare, significand, exponent, Option.any_some]
      rcases Int.lt_or_eq_of_le (by omega : (-52 : ℤ) ≤ (exponentField x).toNat - 1075) with above | equal
      · rw [Int.compare_eq_lt.mpr above]
        rfl
      · rw [Int.compare_eq_eq.mpr equal]
        exact Nat.isLE_compare.mpr (Nat.le_add_right _ _)

omit positive in
theorem toIndex?_of_whole (below : whole < 2 ^ 64) : toIndex? x = some whole := by
  have units : integerPart? x = some (whole : ℤ) := by
    rw [integerPart?_eq finite, same, truncated, if_pos (Nat.cast_nonneg whole), Int.floor_natCast]
  unfold toIndex?
  rw [units]
  exact if_pos below

end Whole

end LiveExpr.Number
