import LiveExpr.Proofs.Number.Unpacked

/-!
Equality up to a tolerance, at the extremes. It is symmetric and reflexive, and NaN equals nothing. The scale of the
tolerance is infinite where an operand is, so that an infinity equals every number.
-/

namespace LiveExpr.Number

open Float.Model (UnpackedFloat)

/-! ## The larger of two numbers -/

section Larger

variable {x y : Float}

/-- For numbers without signs it does not matter which of them comes first. -/
theorem larger_comm (unsigned : (unpacked x).abs = unpacked x) (otherUnsigned : (unpacked y).abs = unpacked y) :
    larger x y = larger y x := by
  by_cases leftNaN : x.isNaN
  · by_cases rightNaN : y.isNaN
    · rw [larger, larger, if_pos leftNaN, if_pos rightNaN]
      exact eq_of_unpacked ((isNaN_iff.mp rightNaN).trans (isNaN_iff.mp leftNaN).symm)
    · rw [larger, larger, if_pos leftNaN, if_neg rightNaN, if_pos leftNaN]
  by_cases rightNaN : y.isNaN
  · rw [larger, larger, if_neg leftNaN, if_pos rightNaN, if_pos rightNaN]
  obtain ⟨order, found⟩ : ∃ order, (unpacked y).compare (unpacked x) = some order := by
    apply Option.ne_none_iff_exists'.mp
    rw [Ne, compare_eq_none_iff, ← isNaN_iff, ← isNaN_iff]
    exact not_or.mpr ⟨rightNaN, leftNaN⟩
  have swapped := compare_swap (unpacked y) (unpacked x)
  rw [found] at swapped
  rw [larger, larger, if_neg leftNaN, if_neg rightNaN, if_neg leftNaN, if_neg rightNaN]
  simp only [gt_iff_lt, lt_iff, found, swapped]
  cases order with
  | lt | gt => rfl
  | eq => exact eq_of_unpacked (eq_of_compare otherUnsigned unsigned found)

theorem larger_of_infinity (infinite : unpacked x = .infinity .positive) (unsigned : (unpacked y).abs = unpacked y) :
    larger x y = x := by
  have number : ¬x.isNaN := by
    rw [isNaN_iff, infinite]
    exact nofun
  rw [larger, if_neg number]
  by_cases nan : y.isNaN
  · rw [if_pos nan]
  by_cases less : y < x
  · rw [if_neg nan, if_pos less]
  · rw [if_neg nan, if_neg less]
    rw [lt_iff, infinite, ← unsigned] at less
    apply eq_of_unpacked
    rw [infinite, ← unsigned]
    cases other : unpacked y with
    | infinity => rfl
    | notANumber => exact absurd (isNaN_iff.mpr other) nan
    | zero | finite =>
      rw [other] at less
      exact absurd rfl less

end Larger

/-! ## The scale of the tolerance -/

/-- What the tolerance of `nearlyEqual` grows with. -/
def scale (left right : Float) : Float :=
  larger (larger left.abs right.abs) 1.0

theorem scale_comm (left right : Float) : scale left right = scale right left := by
  rw [scale, larger_comm (abs_unpacked_abs left) (abs_unpacked_abs right), ← scale]

theorem tolerance_of_infinity {left : Float} {sign : UnpackedFloat.Sign} (infinite : unpacked left = .infinity sign)
    (right : Float) : tolerance * scale left right = infinity := by
  have magnitude := unpacked_abs_of_infinity infinite
  have same : left.abs = infinity := eq_of_unpacked magnitude
  rw [scale, larger_of_infinity magnitude (abs_unpacked_abs right), larger_of_infinity magnitude rfl, same]
  rfl

theorem nearlyEqual_iff {left right : Float} :
    nearlyEqual left right = true ↔ (left == right) = true ∨ (left - right).abs ≤ tolerance * scale left right := by
  unfold nearlyEqual
  split
  next equal => simp only [equal, true_or]
  next different => simp only [different, false_or, decide_eq_true_eq, scale, Bool.false_eq_true]

/-! ## The extremes -/

theorem nearlyEqual_comm (left right : Float) : nearlyEqual left right = nearlyEqual right left := by
  rw [Bool.eq_iff_iff, nearlyEqual_iff, nearlyEqual_iff, BEq.comm, abs_sub_comm, scale_comm]

theorem nearlyEqual_of_isNaN {left : Float} (nan : left.isNaN = true) (right : Float) :
    nearlyEqual left right = false := by
  have number := isNaN_iff.mp nan
  have different : ¬(left == right) = true := by
    rw [eq_of_unpacked (number.trans (rfl : _ = unpacked Float.nan)), Float.nan_beq_eq_false]
    exact Bool.false_ne_true
  have apart : unpacked (left - right).abs = .notANumber := by
    change (Float.Model.pack
      (Float.Model.pack (UnpackedFloat.sub .binary64 (unpacked left) (unpacked right))).unpack.abs).unpack = _
    rw [number, notANumber_sub]
    rfl
  rw [Bool.eq_false_iff, Ne, nearlyEqual_iff, le_iff, apart]
  rintro (equal | close)
  · exact different equal
  · cases close

theorem nearlyEqual_self (x : Float) : nearlyEqual x x = !x.isNaN := by
  cases number : x.isNaN with
  | false =>
    rw [Float.isNaN_eq_decide_eq_nan, decide_eq_false_iff_not] at number
    exact nearlyEqual_iff.mpr (.inl (Float.beq_self_iff.mpr number))
  | true => exact nearlyEqual_of_isNaN number x

theorem nearlyEqual_of_isInf {left : Float} (infinite : left.isInf = true) (right : Float) :
    nearlyEqual left right = !right.isNaN := by
  cases number : right.isNaN with
  | true =>
    rw [nearlyEqual_comm]
    exact nearlyEqual_of_isNaN number left
  | false =>
    obtain ⟨sign, infinity⟩ := isInf_iff.mp infinite
    rw [Bool.not_false, nearlyEqual_iff, tolerance_of_infinity infinity]
    by_cases same : unpacked right = .infinity sign
    · left
      rw [eq_of_unpacked (infinity.trans same.symm), Float.beq_self_iff]
      rw [Float.isNaN_eq_decide_eq_nan, decide_eq_false_iff_not] at number
      exact number
    · right
      have ordered : unpacked right ≠ .notANumber := by
        rw [Ne, ← isNaN_iff, number]
        exact Bool.false_ne_true
      have difference : unpacked (left - right) = .infinity sign := by
        change (Float.Model.pack (UnpackedFloat.sub .binary64 (unpacked left) (unpacked right))).unpack = _
        rw [infinity, infinity_sub .binary64 ordered same]
        exact unpack_pack_infinity sign
      rw [le_iff, unpacked_abs_of_infinity difference]
      rfl

/-- Of any two numbers, NaN and the infinities among them, either may come first. Every number but NaN equals itself,
and NaN equals nothing. An infinity equals every number but NaN, since both the difference and the tolerance are
infinite. -/
theorem nearlyEqual_extremes (left right : Float) :
    nearlyEqual left right = nearlyEqual right left ∧
      nearlyEqual left left = !left.isNaN ∧
      (left.isNaN = true → nearlyEqual left right = false) ∧
      (left.isInf = true → nearlyEqual left right = !right.isNaN) :=
  ⟨nearlyEqual_comm left right, nearlyEqual_self left, (nearlyEqual_of_isNaN · right), (nearlyEqual_of_isInf · right)⟩

theorem nearlyEqual_extremes_nan :
    nan.isNaN = true ∧ nearlyEqual nan infinity = false ∧ infinity.isInf = true ∧ nearlyEqual infinity nan = false := by
  have isNaN : nan.isNaN = true := rfl
  have isInf : infinity.isInf = true := rfl
  exact ⟨isNaN, (nearlyEqual_extremes nan infinity).2.2.1 isNaN, isInf, (nearlyEqual_extremes infinity nan).2.2.2 isInf⟩

theorem nearlyEqual_infinity_five : (infinity == 5.0) = false ∧ nearlyEqual infinity 5.0 = true := by
  decide +kernel

end LiveExpr.Number
