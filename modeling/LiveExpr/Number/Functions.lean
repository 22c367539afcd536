import LiveExpr.Number.Rounding

/-!
The functions of one, two and three numbers that formulas can call by name, as far as they are more than a
single operation on doubles.
-/

namespace LiveExpr.Number

/-! ## Sign and range -/

/-- `1`, `-1` or a zero of the same sign; NaN stays NaN. -/
def sign (x : Float) : Float :=
  if x > 0.0 then 1.0
  else if x < 0.0 then -1.0
  else x * 0.0

def withSign (x model : Float) : Float :=
  if isNegative model then -x.abs else x.abs

def clamp (lower x upper : Float) : Float :=
  if x < lower then lower
  else if x > upper then upper
  else x

/-- Moves a number inside the range to the closer end, and leaves one outside as it is. -/
def clampOut (lower x upper : Float) : Float :=
  if x <= lower || x >= upper then x
  else if x - lower < upper - x then lower
  else upper

/-- Whether `x` lies in the range, its ends included. -/
def inRange (lower x upper : Float) : Float :=
  ofBool (lower <= x && x <= upper)

/-! ## Angles -/

def pi : Float := 3.14159265358979323846264338327950288

/-- The distance from `1` to the next larger double. -/
def epsilon : Float := 2.2204460492503131e-16

def degreesToRadians (x : Float) : Float :=
  x * (pi / 180.0)

def radiansToDegrees (x : Float) : Float :=
  x * 57.2957795130823208767981548141051703

def degreesToGradians (x : Float) : Float :=
  x * 10.0 / 9.0

def gradiansToDegrees (x : Float) : Float :=
  x * 9.0 / 10.0

def cotangent (x : Float) : Float :=
  1.0 / x.tan

def cosecant (x : Float) : Float :=
  1.0 / x.sin

def secant (x : Float) : Float :=
  1.0 / x.cos

def sinc (x : Float) : Float :=
  if x.abs < epsilon then 1.0 else x.sin / x

/-! ## Exponentials and logarithms -/

/-- `exp x - 1`, also where `exp x` is close to `1`: the rounding error of the exponential cancels against
that of its logarithm. -/
def expMinusOne (x : Float) : Float :=
  let power := x.exp
  if power == 1.0 then x
  else if power.isInf || power - 1.0 == -1.0 then power - 1.0
  else (power - 1.0) * (x / power.log)

/-- `log (1 + x)`, also where `1 + x` is close to `1`: what the sum loses by rounding is added to the
logarithm to first order. -/
def logOnePlus (x : Float) : Float :=
  let sum := 1.0 + x
  if sum == 1.0 then x
  else if sum == 0.0 || sum.isInf then sum.log
  else sum.log + (x - (sum - 1.0)) / sum

def logarithm (x base : Float) : Float :=
  x.log / base.log

/-! ## Roots -/

/-- Newton's iteration from above for the whole root of a degree. -/
def wholeRootFrom (degree power guess : Nat) : Nat → Nat
  | 0 => guess
  | more + 1 =>
    let next := ((degree - 1) * guess + power / guess.pow (degree - 1)) / degree
    if next < guess then wholeRootFrom degree power next more else guess

/-- The largest natural number whose power of the degree is at most `power`. -/
def wholeRoot (degree power : Nat) : Nat :=
  wholeRootFrom degree power (1 <<< (power.log2 / degree + 1)) (power.log2 + 1)

/-- Twice the root of a power, and one more if the whole root is not exact: enough to round it. -/
def doubledRoot (degree power : Nat) : Nat :=
  let root := wholeRoot degree power
  if root.pow degree == power then 2 * root else 2 * root + 1

/-- The length of the hypotenuse over two sides: the root of the exact sum of squares, rounded once. -/
def hypotenuse (x y : Float) : Float :=
  if x.isInf || y.isInf then infinity
  else if x.isNaN || y.isNaN then nan
  else
    let left := Magnitude.ofFloat x
    let right := Magnitude.ofFloat y
    let exponent := min left.exponent right.exponent
    let across := left.significand <<< (left.exponent - exponent).toNat
    let up := right.significand <<< (right.exponent - exponent).toNat
    let doubled := doubledRoot 2 ((across * across + up * up) <<< 128)
    nearest false (doubled <<< exponent.toNat) (1 <<< (65 + (-exponent).toNat))

def cubeRoot (x : Float) : Float :=
  if x.isNaN || x.isInf || x == 0.0 then x
  else
    let size := Magnitude.ofFloat x
    let third := size.exponent.fdiv 3
    let doubled := doubledRoot 3 (size.significand <<< ((size.exponent.fmod 3).toNat + 192))
    nearest (isNegative x) (doubled <<< third.toNat) (1 <<< (65 + (-third).toNat))

/-- The root of `x` of the given degree. An odd whole degree also has the roots of negative numbers. -/
def root (x degree : Float) : Float :=
  if degree == 3.0 then cubeRoot x
  else if x < 0.0 && fraction degree == 0.0 && remainder degree 2.0 != 0.0 then
    -(Float.pow (-x) (1.0 / degree))
  else Float.pow x (1.0 / degree)

/-! ## Inverse hyperbolic functions -/

/-- Beyond this number, adding one to a square or taking one from it does not change the root. -/
def hyperbolicBound : Float := 268435456.0

/-- The logarithm of twice a number, also where twice the number is too large. -/
def logOfDouble (x : Float) : Float :=
  x.log + Float.log 2.0

def areaSine (x : Float) : Float :=
  let size := x.abs
  let area :=
    if hyperbolicBound < size then logOfDouble size
    else logOnePlus (size + size * size / (1.0 + (1.0 + size * size).sqrt))
  withSign area x

/-- The inverse of the hyperbolic cosine, for `x` from `1` on. It is computed on what exceeds `1`, which is
exact where the result is small. -/
def areaCosine (x : Float) : Float :=
  if x < 1.0 then nan
  else if hyperbolicBound < x then logOfDouble x
  else
    let excess := x - 1.0
    logOnePlus (excess + (excess * (excess + 2.0)).sqrt)

/-- The inverse of the hyperbolic tangent. -/
def areaTangent (x : Float) : Float :=
  0.5 * logOnePlus (2.0 * x / (1.0 - x))

end LiveExpr.Number
