import LiveExpr.Number.Magnitude

/-!
The fewest decimal digits that read back as the same double. Among the decimals with that many digits the
one closest to the number is taken, and of two equally close ones the larger. The search compares exact
naturals, so no rounding enters.
-/

namespace LiveExpr.Number

structure Decimal where
  digits : Nat
  exponent : Int
deriving DecidableEq, Repr

def Decimal.compareBinary (d : Decimal) (units : Nat) (power : Int) : Ordering :=
  compare ((d.digits * Nat.pow 10 d.exponent.toNat) <<< (-power).toNat)
    ((units * Nat.pow 10 (-d.exponent).toNat) <<< power.toNat)

/-- Moves up to `count` zeros from the end of the digits into the exponent. -/
def Decimal.strip (d : Decimal) : (count : Nat) → Decimal
  | 0 => d
  | count + 1 =>
    if d.digits != 0 && d.digits % 10 == 0 then
      Decimal.strip ⟨d.digits / 10, d.exponent + 1⟩ count
    else d

namespace Magnitude

/-- Whether the decimal reads back as this magnitude: it lies between the midpoints to the two neighbouring
doubles, a midpoint itself belonging to the even significand. -/
def accepts (x : Magnitude) (d : Decimal) : Bool :=
  let low := 4 * x.significand - (if x.narrowBelow then 1 else 2)
  let high := 4 * x.significand + 2
  let even := x.significand % 2 == 0
  let above := d.compareBinary low (x.exponent - 2)
  let below := d.compareBinary high (x.exponent - 2)
  (above == .gt || (even && above == .eq)) && (below == .lt || (even && below == .eq))

def belowPower (x : Magnitude) (power : Int) : Bool :=
  (x.significand * Nat.pow 10 (-power).toNat) <<< x.exponent.toNat
    < Nat.pow 10 power.toNat <<< (-x.exponent).toNat

/-- The least power of ten above a positive magnitude. The binary length gives it up to a few steps. -/
def decimalScale (x : Magnitude) : Int :=
  let guess := ((x.significand.log2 : Int) + x.exponent) * 30103 / 100000
  if x.belowPower guess then guess
  else if x.belowPower (guess + 1) then guess + 1
  else if x.belowPower (guess + 2) then guess + 2
  else guess + 3

/-- The magnitude divided by `10 ^ power`, as a pair of naturals. -/
def overPower (x : Magnitude) (power : Int) : Nat × Nat :=
  ((x.significand * Nat.pow 10 (-power).toNat) <<< x.exponent.toNat,
    Nat.pow 10 power.toNat <<< (-x.exponent).toNat)

/-- The closest multiple of `10 ^ power` that reads back as the magnitude, if one of the two around it
does. -/
def onGrid? (x : Magnitude) (power : Int) : Option Decimal :=
  let (numerator, denominator) := x.overPower power
  let lower : Decimal := ⟨numerator / denominator, power⟩
  let upper : Decimal := ⟨numerator / denominator + 1, power⟩
  match x.accepts lower, x.accepts upper with
  | true, true => some (if 2 * (numerator % denominator) < denominator then lower else upper)
  | true, false => some lower
  | false, true => some upper
  | false, false => none

/-- Searches grids of one more digit each until a decimal reads back. -/
def shortestFrom (x : Magnitude) (power : Int) : Nat → Decimal
  | 0 => ⟨(x.significand * Nat.pow 5 (-x.exponent).toNat) <<< x.exponent.toNat, min x.exponent 0⟩
  | more + 1 =>
    match x.onGrid? power with
    | some found => found
    | none => x.shortestFrom (power - 1) more

/-- The shortest decimal of a magnitude, its last digit not zero unless it is the only one. Seventeen digits
always suffice, and the last resort of the search is the exact value. -/
def shortest (x : Magnitude) : Decimal :=
  if x.significand == 0 then ⟨0, 0⟩
  else
    let found := x.shortestFrom (x.decimalScale - 1) 17
    found.strip (Nat.repr found.digits).length

end Magnitude

example : (Magnitude.ofFloat 0.1).shortest = ⟨1, -1⟩ := by decide +kernel
example : (Magnitude.ofFloat 1e23).shortest = ⟨1, 23⟩ := by decide +kernel
example : (Magnitude.ofFloat 5e-324).shortest = ⟨5, -324⟩ := by decide +kernel

end LiveExpr.Number
