import LiveExpr.Proofs.Number.Value
import LiveExpr.Text.Slice

/-!
A slice is what lies between two positions: its bounds without their fractions, which may be negative, in the wrong
order or far beyond the string. Only a last bound between -1 and 0 does not stand for the first position, as it would
without its fraction. It counts as negative, so that nothing is left.
-/

namespace LiveExpr.Bytes

open Number (value truncated)

/-- The bytes at the positions from one to another, both included, in order. -/
def between (source : Bytes) (lower upper : Int) : Bytes :=
  (source.zipIdx.filter fun entry => lower ≤ entry.2 ∧ entry.2 ≤ upper).map Prod.fst

/-- The bytes between two positions stand together. For the sake of the induction, positions count from `start`. -/
theorem filter_zipIdx (source : Bytes) (lower upper : Int) (start : Nat) :
    ((source.zipIdx start).filter fun entry => lower ≤ entry.2 ∧ entry.2 ≤ upper).map Prod.fst =
      (source.drop (lower - start).toNat).take (upper + 1 - max lower start).toNat := by
  induction source generalizing start with
  | nil => simp
  | cons byte rest induction =>
    have next := induction (start + 1)
    push_cast at next
    rw [List.zipIdx_cons, List.filter_cons]
    by_cases early : (start : Int) < lower
    · have skipped : (lower - start).toNat = (lower - (start + 1)).toNat + 1 := by omega
      rw [if_neg (by simp; omega), next, skipped, List.drop_succ_cons, max_eq_left early.le,
        max_eq_left (by omega : (start : Int) + 1 ≤ lower)]
    have reached : (lower - start).toNat = 0 ∧ (lower - (start + 1)).toNat = 0 := by omega
    rw [reached.2, max_eq_right (by omega : lower ≤ (start : Int) + 1), List.drop_zero] at next
    rw [reached.1, max_eq_right (by omega : lower ≤ (start : Int)), List.drop_zero]
    by_cases late : upper < start
    · have ended : (upper + 1 - start).toNat = 0 ∧ (upper + 1 - (start + 1)).toNat = 0 := by omega
      rw [if_neg (by simp; omega), next, ended.1, ended.2, List.take_zero, List.take_zero]
    · have taken : (upper + 1 - start).toNat = (upper + 1 - (start + 1)).toNat + 1 := by omega
      rw [if_pos (by simp; omega), List.map_cons, next, taken, List.take_succ_cons]

theorem between_eq (source : Bytes) (lower upper : Int) :
    source.between lower upper = (source.drop lower.toNat).take (upper + 1 - max lower 0).toNat := by
  simpa [between] using source.filter_zipIdx lower upper 0

theorem between_of_neg (source : Bytes) (lower : Int) {upper : Int} (negative : upper < 0) :
    source.between lower upper = [] := by
  have none : (upper + 1 - max lower 0).toNat = 0 := by omega
  rw [between_eq, none, List.take_zero]

/-- A bound stands for what remains of it without its fraction, unless that is too large for a position. -/
theorem boundPosition_eq {bound : Float} (finite : bound.isFinite = true) :
    boundPosition bound = min (truncated (value bound)).toNat (2 ^ 64 - 1) := by
  rw [boundPosition, Number.larger_zero finite]
  split
  next positive =>
    obtain ⟨position, whole⟩ := Int.eq_ofNat_of_zero_le (Number.truncated_nonneg positive.le)
    rw [Number.toIndex?, Number.integerPart?_eq finite, whole, Int.toNat_natCast]
    dsimp only
    split
    · rw [Option.getD_some]
      omega
    · rw [Option.getD_none]
      omega
  next nonpos =>
    have whole := Number.truncated_nonpos (not_lt.mp nonpos)
    have origin : Number.toIndex? 0.0 = some 0 := rfl
    rw [origin, Int.toNat_of_nonpos whole]
    rfl

section Slice

variable (source : Bytes) (addressable : source.length < 2 ^ 64)

include addressable

/-- Clipping positions to the string, or to what counts as a position, takes nothing away from what is between them. -/
theorem clipped_eq_between {lower upper : Int} {stop : Nat} (clipped : stop = min (upper + 1).toNat source.length) :
    (source.drop (min lower.toNat (2 ^ 64 - 1))).take (stop - min lower.toNat (2 ^ 64 - 1)) =
      source.between lower upper := by
  rw [between_eq]
  rcases le_total lower.toNat (2 ^ 64 - 1) with small | large
  · rw [min_eq_left small, List.take_eq_take_iff, List.length_drop]
    omega
  · rw [min_eq_right large, List.drop_eq_nil_of_le (by omega), List.drop_eq_nil_of_le (by omega), List.take_nil,
      List.take_nil]

/-- Unless the last bound is between -1 and 0, a slice consists of the bytes at the positions from the first bound to
the last one, which are cut off towards zero; a missing bound is the first or the last position. A last bound between -1
and 0 leaves nothing. The string has to fit into memory, where its length is a word. -/
theorem slice_eq_between (first last : Option Float) (firstFinite : ∀ bound ∈ first, bound.isFinite = true)
    (lastFinite : ∀ bound ∈ last, bound.isFinite = true) :
    ((¬∃ bound ∈ last, -1 < value bound ∧ value bound < 0) →
      source.slice first last = source.between ((first.map fun bound => truncated (value bound)).getD 0)
        ((last.map fun bound => truncated (value bound)).getD (source.length - 1))) ∧
      ((∃ bound ∈ last, -1 < value bound ∧ value bound < 0) → source.slice first last = []) := by
  have start : (first.map boundPosition).getD 0 =
      min ((first.map fun bound => truncated (value bound)).getD 0).toNat (2 ^ 64 - 1) := by
    cases first with
    | none => rfl
    | some bound => exact boundPosition_eq (firstFinite bound rfl)
  constructor
  · intro whole
    unfold slice
    rw [start]
    cases last with
    | none =>
      apply clipped_eq_between source addressable
      simp
    | some bound =>
      have finite := lastFinite bound rfl
      simp only [Option.any_some, decide_eq_true_eq, Number.lt_zero_iff finite, Option.map_some, Option.getD_some,
        boundPosition_eq finite]
      split
      next negative =>
        have least : value bound ≤ -1 := not_lt.mp fun above => whole ⟨bound, rfl, above, negative⟩
        rw [between_of_neg _ _ (Number.truncated_neg_of_le least)]
      next nonneg =>
        apply clipped_eq_between source addressable
        have position := Number.truncated_nonneg (not_lt.mp nonneg)
        omega
  · rintro ⟨bound, rfl, -, negative⟩
    have finite := lastFinite bound rfl
    simp [slice, Number.lt_zero_iff finite, negative]

end Slice

/-- From 1.9 to 3.2, `abcdef` has the bytes at the positions 1, 2 and 3. -/
theorem slice_eq_between_fractions :
    let source : Bytes := [97, 98, 99, 100, 101, 102]
    source.length < 2 ^ 64 ∧ (1.9 : Float).isFinite = true ∧ (3.2 : Float).isFinite = true ∧
      source.slice (some 1.9) (some 3.2) = source.between 1 3 ∧ source.between 1 3 = [98, 99, 100] := by
  intro source
  have addressable : source.length < 2 ^ 64 := by decide
  have firstFinite : (1.9 : Float).isFinite = true := rfl
  have lastFinite : (3.2 : Float).isFinite = true := rfl
  have lower : truncated (value 1.9) = 1 := Option.some.inj (Number.integerPart?_eq firstFinite).symm
  have upper : truncated (value 3.2) = 3 := Option.some.inj (Number.integerPart?_eq lastFinite).symm
  have whole : ¬∃ bound ∈ some (3.2 : Float), -1 < value bound ∧ value bound < 0 := by
    rintro ⟨bound, found, -, negative⟩
    rw [← Option.some.inj found] at negative
    have positive : ¬(3.2 : Float) < 0.0 := by decide +kernel
    exact positive ((Number.lt_zero_iff lastFinite).mpr negative)
  have sliced := (slice_eq_between source addressable (some 1.9) (some 3.2)
    (fun _ found => Option.some.inj found ▸ firstFinite) (fun _ found => Option.some.inj found ▸ lastFinite)).1 whole
  simp only [Option.map_some, Option.getD_some, lower, upper] at sliced
  exact ⟨addressable, firstFinite, lastFinite, sliced, rfl⟩

/-- Without its fraction, a last bound of -0.5 is the first position, and `a` is there in `abc`. The slice is empty. -/
theorem slice_minusHalf :
    truncated (value (-0.5)) = 0 ∧ between [97, 98, 99] 0 0 = [97] ∧ slice [97, 98, 99] none (some (-0.5)) = [] := by
  have finite : (-0.5 : Float).isFinite = true := rfl
  exact ⟨Option.some.inj (Number.integerPart?_eq finite).symm, rfl, by decide +kernel⟩

end LiveExpr.Bytes
