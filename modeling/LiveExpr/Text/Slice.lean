import LiveExpr.Number.Rounding
import LiveExpr.Text.Bytes

/-!
Slices of byte strings. Both bounds belong to the slice; they are numbers, cut off to positions and clipped
to the string.
-/

namespace LiveExpr.Bytes

/-- The position that a bound denotes. What is negative or NaN denotes the first position, what is too large
for a position one beyond every string. -/
def boundPosition (bound : Float) : Nat :=
  (Number.toIndex? (Number.larger bound 0.0)).getD 18446744073709551615

/-- The bytes from `first` to `last`, both included. A missing bound is the beginning or the end. -/
def slice (source : Bytes) (first last : Option Float) : Bytes :=
  if last.any (· < 0.0) then []
  else
    let start := (first.map boundPosition).getD 0
    let stop := min ((last.map boundPosition).getD source.length + 1) source.length
    (source.drop start).take (stop - start)

end LiveExpr.Bytes
