import LiveExpr.Number.Magnitude

/-!
Truth, order and rounding of numbers: what counts as true, how two numbers compare when one of them may be
NaN, and the ways of getting from a number to a whole one.
-/

namespace LiveExpr.Number

def nan : Float := 0.0 / 0.0

def infinity : Float := 1.0 / 0.0

/-- Any number other than zero is true, NaN among them. -/
def isTrue (x : Float) : Bool :=
  x != 0.0

/-- The number that stands for a truth value. -/
def ofBool (b : Bool) : Float :=
  if b then 1.0 else 0.0

/-- The order of two numbers. NaN has no order with any number. -/
def order? (left right : Float) : Option Ordering :=
  if left < right then some .lt
  else if left > right then some .gt
  else if left == right then some .eq
  else none

/-- The smaller number; NaN gives way to a number. -/
def smaller (left right : Float) : Float :=
  if left.isNaN then right
  else if right.isNaN then left
  else if left < right then left else right

/-- The larger number; NaN gives way to a number. -/
def larger (left right : Float) : Float :=
  if left.isNaN then right
  else if right.isNaN then left
  else if left > right then left else right

/-- The whole number reached by cutting off the fraction: the bits that stand for less than one are cleared. The sign
stays, also that of zero. -/
def truncate (x : Float) : Float :=
  let biased := ((x.toBits >>> 52) &&& 0x7FF).toNat
  if biased < 1023 then Float.ofBits ((x.toBits >>> 63) <<< 63)
  else
    let fractional := UInt64.ofNat (1075 - biased)
    Float.ofBits ((x.toBits >>> fractional) <<< fractional)

example : truncate (-2.75) = -2.0 := by decide +kernel

/-- What cutting off the fraction takes away. -/
def fraction (x : Float) : Float :=
  x - truncate x

/-- A position in a sequence: the number without its fraction, if that is neither negative nor as large as
`2 ^ 64`. -/
def toIndex? (x : Float) : Option Nat :=
  match integerPart? x with
  | some (.ofNat index) => if index < 18446744073709551616 then some index else none
  | _ => none

/-- The remainder of the division that rounds towards zero. It is exact and has the sign of the dividend. -/
def remainder (dividend divisor : Float) : Float :=
  if dividend.isNaN || divisor.isNaN || dividend.isInf || divisor == 0.0 then nan
  else if divisor.isInf then dividend
  else
    let left := Magnitude.ofFloat dividend
    let right := Magnitude.ofFloat divisor
    let exponent := min left.exponent right.exponent
    let units := left.significand <<< (left.exponent - exponent).toNat
      % (right.significand <<< (right.exponent - exponent).toNat)
    nearest (isNegative dividend) (units <<< exponent.toNat) (1 <<< (-exponent).toNat)

/-- The relative tolerance of `nearlyEqual`. -/
def tolerance : Float := 1e-10

/-- Equality up to a tolerance that grows with the larger of the two numbers. -/
def nearlyEqual (left right : Float) : Bool :=
  if left == right then true
  else
    let scale := larger (larger left.abs right.abs) 1.0
    (left - right).abs <= tolerance * scale

def roundTo (x places : Float) : Float :=
  let places := truncate places
  if places < 0.0 then
    let factor := Float.pow 10.0 (-places)
    (x / factor).round * factor
  else
    let factor := Float.pow 10.0 places
    (x * factor).round / factor

end LiveExpr.Number
