import LiveExpr.Number.Rounding
import Mathlib

/-!
What the bits of a number stand for: NaN, an infinity, a zero, or a sign with a mantissa and an exponent. Comparison,
subtraction and the absolute value are laws on these. The laws of packing that this starts from come with no smaller
part of Mathlib than the whole.
-/

namespace LiveExpr.Number

open Float.Model (UnpackedFloat Format)
open Float.Model.UnpackedFloat (Sign packComponents)

/-- What the bits of a number stand for. -/
def unpacked (x : Float) : UnpackedFloat :=
  x.toModel.unpack

theorem eq_of_unpacked {x y : Float} (same : unpacked x = unpacked y) : x = y := by
  rw [← Float.toBits_inj, ← UInt64.toBitVec_inj]
  exact (UnpackedFloat.unpack_inj_of_valid x.toModel.valid y.toModel.valid).mp same

/-! ## The sign bit -/

section Packing

variable {spec : Format}

theorem abs_unpack_packComponents (sign : Sign) (exponent : BitVec spec.exponentBits)
    (mantissa : BitVec spec.mantissaBitsWithoutImplicit) :
    (UnpackedFloat.unpack spec (packComponents spec sign exponent mantissa)).abs =
      UnpackedFloat.unpack spec (packComponents spec .positive exponent mantissa) := by
  unfold UnpackedFloat.unpack
  simp only [UnpackedFloat.unpackMantissa_packComponents, UnpackedFloat.unpackExponent_packComponents,
    UnpackedFloat.unpackSign_packComponents]
  split
  · split <;> rfl
  · split
    · split <;> rfl
    · rfl

/-- The sign can be dropped before packing as well as after it. -/
theorem abs_unpack_pack (number : UnpackedFloat) :
    (UnpackedFloat.unpack spec (UnpackedFloat.pack spec number)).abs =
      UnpackedFloat.unpack spec (UnpackedFloat.pack spec number.abs) := by
  cases number with
  | notANumber | infinity | zero => exact abs_unpack_packComponents ..
  | finite sign mantissa exponent positive =>
    by_cases large : 2 ^ spec.exponentBits ≤
        (exponent + spec.exponentBias + spec.mantissaBitsWithoutImplicit).toNat + 1
    · simp only [UnpackedFloat.abs, UnpackedFloat.pack, if_pos large]
      exact abs_unpack_packComponents ..
    · by_cases full : mantissa.log2 + 1 = spec.mantissaBits
      · simp only [UnpackedFloat.abs, UnpackedFloat.pack, if_neg large, if_pos full]
        exact abs_unpack_packComponents ..
      · simp only [UnpackedFloat.abs, UnpackedFloat.pack, if_neg large, if_neg full]
        exact abs_unpack_packComponents ..

theorem unpack_pack_infinity (sign : Sign) : (Float.Model.pack (.infinity sign)).unpack = .infinity sign := by
  cases sign <;> rfl

theorem abs_abs (number : UnpackedFloat) : number.abs.abs = number.abs := by
  cases number <;> rfl

end Packing

/-! ## Comparison -/

section Comparison

variable {left right : UnpackedFloat}

theorem compare_swap (left right : UnpackedFloat) : right.compare left = (left.compare right).map Ordering.swap := by
  rcases left with ⟨⟨⟩⟩ | _ | ⟨⟨⟩⟩ | ⟨⟨⟩, mantissa, exponent, _⟩ <;>
    rcases right with ⟨⟨⟩⟩ | _ | ⟨⟨⟩⟩ | ⟨⟨⟩, otherMantissa, otherExponent, _⟩ <;>
    first
      | rfl
      | simp [UnpackedFloat.compare, Ordering.swap_then, Int.compare_swap, Nat.compare_swap]

theorem compare_eq_none_iff : left.compare right = none ↔ left = .notANumber ∨ right = .notANumber := by
  rcases left with ⟨⟨⟩⟩ | _ | ⟨⟨⟩⟩ | ⟨⟨⟩, mantissa, exponent, _⟩ <;>
    rcases right with ⟨⟨⟩⟩ | _ | ⟨⟨⟩⟩ | ⟨⟨⟩, otherMantissa, otherExponent, _⟩ <;>
    simp [UnpackedFloat.compare]

/-- Without signs, only one zero equals zero. -/
theorem eq_of_compare (leftUnsigned : left.abs = left) (rightUnsigned : right.abs = right)
    (equal : left.compare right = some .eq) : left = right := by
  rw [← leftUnsigned, ← rightUnsigned] at equal ⊢
  cases left with
  | finite sign mantissa exponent =>
    cases right with
    | finite otherSign otherMantissa otherExponent =>
      have same : exponent = otherExponent ∧ mantissa = otherMantissa := by
        simpa [UnpackedFloat.compare, UnpackedFloat.abs] using equal
      obtain ⟨rfl, rfl⟩ := same
      rfl
    | _ => cases equal
  | _ => cases right <;> first | rfl | cases equal

end Comparison

/-! ## Subtraction -/

section Subtraction

variable (spec : Format) {right : UnpackedFloat}

theorem notANumber_sub (right : UnpackedFloat) : UnpackedFloat.sub spec .notANumber right = .notANumber := by
  cases right <;> rfl

theorem infinity_sub {sign : Sign} (ordered : right ≠ .notANumber) (other : right ≠ .infinity sign) :
    UnpackedFloat.sub spec (.infinity sign) right = .infinity sign := by
  cases right with
  | notANumber => exact absurd rfl ordered
  | infinity otherSign => cases sign <;> cases otherSign <;> first | rfl | exact absurd rfl other
  | zero | finite => rfl

theorem abs_round (sign : Sign) (mantissa : Nat) (exponent : Int) :
    (UnpackedFloat.round spec sign mantissa exponent).abs = UnpackedFloat.round spec .positive mantissa exponent := by
  unfold UnpackedFloat.round UnpackedFloat.roundWithAccuracy
  dsimp only
  split <;> rfl

theorem abs_normalize_neg (mantissa exponent : Int) (sign : Sign) :
    (UnpackedFloat.normalize spec (-mantissa) exponent sign).abs =
      (UnpackedFloat.normalize spec mantissa exponent sign).abs := by
  unfold UnpackedFloat.normalize
  rcases Int.lt_trichotomy mantissa 0 with negative | rfl | positive
  · rw [Int.compare_eq_gt.mpr (by omega : 0 < -mantissa), Int.compare_eq_lt.mpr negative]
    exact (abs_round ..).trans (abs_round ..).symm
  · rfl
  · rw [Int.compare_eq_lt.mpr (by omega : -mantissa < 0), Int.compare_eq_gt.mpr positive]
    simp only [abs_round, Int.neg_neg]

/-- A difference is as large the other way round. -/
theorem abs_sub (left right : UnpackedFloat) :
    (UnpackedFloat.sub spec left right).abs = (UnpackedFloat.sub spec right left).abs := by
  cases left with
  | notANumber => cases right <;> rfl
  | infinity sign =>
    cases right with
    | infinity other => cases sign <;> cases other <;> rfl
    | _ => rfl
  | zero sign =>
    cases right with
    | zero other => cases sign <;> cases other <;> rfl
    | _ => rfl
  | finite sign mantissa exponent =>
    cases right with
    | finite otherSign otherMantissa otherExponent =>
      simp only [UnpackedFloat.sub]
      rw [Int.min_comm otherExponent exponent, ← abs_normalize_neg, Int.neg_sub]
    | _ => rfl

end Subtraction

/-! ## Numbers -/

variable {x y : Float}

theorem lt_iff : x < y ↔ (unpacked x).compare (unpacked y) = some .lt :=
  decide_eq_true_iff.trans beq_iff_eq

theorem le_iff : x ≤ y ↔ (unpacked x).le (unpacked y) = true :=
  decide_eq_true_iff

theorem isNaN_iff : x.isNaN = true ↔ unpacked x = .notANumber :=
  UnpackedFloat.isNaN_iff

theorem isInf_iff : x.isInf = true ↔ ∃ sign, unpacked x = .infinity sign := by
  change (unpacked x).isInf = true ↔ _
  cases unpacked x <;> simp [UnpackedFloat.isInf]

/-- The absolute value of a number has no sign. -/
theorem abs_unpacked_abs (x : Float) : (unpacked x.abs).abs = unpacked x.abs := by
  calc (unpacked x.abs).abs
    _ = (Float.Model.pack (unpacked x).abs.abs).unpack := abs_unpack_pack _
    _ = unpacked x.abs := by rw [abs_abs]; rfl

theorem unpacked_abs_of_infinity {sign : Sign} (infinite : unpacked x = .infinity sign) :
    unpacked x.abs = .infinity .positive := by
  change (Float.Model.pack (unpacked x).abs).unpack = _
  rw [infinite]
  exact unpack_pack_infinity _

theorem abs_sub_comm (x y : Float) : (x - y).abs = (y - x).abs := by
  have magnitude (left right : Float) : unpacked (left - right).abs = (Float.Model.pack
      (Float.Model.pack (UnpackedFloat.sub .binary64 (unpacked left) (unpacked right)).abs).unpack).unpack :=
    congrArg (fun number => (Float.Model.pack number).unpack) (abs_unpack_pack _)
  apply eq_of_unpacked
  rw [magnitude, magnitude, abs_sub]

end LiveExpr.Number
