/-!
The exact value behind a double. A finite number is a sign and a magnitude `significand * 2 ^ exponent`;
everything that has to be exact (digits, whole parts, remainders, roots) is computed on that pair, and
`nearest` brings an exact quotient back to the closest double.
-/

namespace LiveExpr.Number

/-- Whether the sign bit is set. It tells `-0` from `0`. -/
def isNegative (x : Float) : Bool :=
  x.toBits >>> 63 == 1

structure Magnitude where
  significand : Nat
  exponent : Int
  /-- The gap to the next magnitude below is half the gap to the one above: the significand is the least
  of its binade. -/
  narrowBelow : Bool
deriving DecidableEq, Repr

namespace Magnitude

/-- The magnitude written in the bits of a finite number. NaN and the infinities have none; they are told
apart before this is asked. -/
def ofFloat (x : Float) : Magnitude :=
  let biased := ((x.toBits >>> 52) &&& 0x7FF).toNat
  let fraction := (x.toBits &&& 0xFFFFFFFFFFFFF).toNat
  if biased == 0 then ⟨fraction, -1074, false⟩
  else ⟨4503599627370496 + fraction, (biased : Int) - 1075, fraction == 0 && biased > 1⟩

/-- The whole units of a magnitude: what is left when the binary fraction is cut off. -/
def whole (x : Magnitude) : Nat :=
  x.significand <<< x.exponent.toNat >>> (-x.exponent).toNat

end Magnitude

/-- The integer that remains of a finite number when its fraction is cut off. -/
def integerPart? (x : Float) : Option Int :=
  if x.isFinite then
    let units : Int := (Magnitude.ofFloat x).whole
    some (if isNegative x then -units else units)
  else none

/-- The quotient rounded to an integer, a half going to the even neighbour. -/
def roundQuotient (numerator denominator : Nat) : Nat :=
  let quotient := numerator / denominator
  let doubled := 2 * (numerator % denominator)
  if doubled < denominator then quotient
  else if denominator < doubled then quotient + 1
  else if quotient % 2 == 0 then quotient else quotient + 1

/-- The double nearest to `numerator / denominator`, a tie going to the even significand. What lies beyond
the largest double becomes an infinity. -/
def nearest (negative : Bool) (numerator denominator : Nat) : Float :=
  let size : UInt64 :=
    if numerator == 0 then 0
    else
      let guess : Int := (numerator.log2 : Int) - (denominator.log2 : Int) - 53
      let wide := (9007199254740992 * denominator) <<< guess.toNat ≤ numerator <<< (-guess).toNat
      let exponent := max (if wide then guess + 1 else guess) (-1074)
      let significand :=
        roundQuotient (numerator <<< (-exponent).toNat) (denominator <<< exponent.toNat)
      let bits := (exponent + 1074).toNat * 4503599627370496 + significand
      if bits < 0x7FF0000000000000 then UInt64.ofNat bits else 0x7FF0000000000000
  Float.ofBits (if negative then size ||| 0x8000000000000000 else size)

example : nearest false 1 10 = 0.1 := by decide +kernel
example : nearest true 1 3 = -0.3333333333333333 := by decide +kernel

end LiveExpr.Number
