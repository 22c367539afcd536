import LiveExpr.Operator

/-!
The functions that every formula can call. Their names are reserved.
-/

namespace LiveExpr

/-- How many arguments a function takes. -/
inductive Arity where
  | exactly (count : Nat)
  | atLeast (count : Nat)
deriving DecidableEq, Repr

namespace Arity

def accepts : Arity → Nat → Bool
  | exactly count, given => given == count
  | atLeast count, given => count ≤ given

def counted (count : Nat) : String :=
  if count == 1 then "1 argument" else toString count ++ " arguments"

def label : Arity → String
  | exactly count => counted count
  | atLeast count => "at least " ++ counted count

end Arity

/-- What a built-in function computes, by the number of its arguments. -/
inductive Computation where
  /-- Applied to a vector, it is applied to every element. -/
  | unary (apply : Float → Float)
  | binary (apply : Float → Float → Float)
  | ternary (apply : Float → Float → Float → Float)
  /-- Reduces its arguments, or the elements of a single vector. -/
  | aggregate (op : Aggregate)

namespace Computation

def arity : Computation → Arity
  | unary _ => .exactly 1
  | binary _ => .exactly 2
  | ternary _ => .exactly 3
  | aggregate _ => .atLeast 1

/-- The value on the given arguments; NaN if their number is not accepted. -/
def apply : Computation → List Float → Float
  | unary f, [x] => f x
  | binary f, [x, y] => f x y
  | ternary f, [x, y, z] => f x y z
  | aggregate op, values => op.apply values
  | _, _ => Number.nan

end Computation

/-- A built-in function. -/
structure Builtin where
  name : String
  computation : Computation

namespace Builtin

def arity (builtin : Builtin) : Arity :=
  builtin.computation.arity

/-- Every built-in function. -/
def all : List Builtin := [
  ⟨"abs", .unary Float.abs⟩,
  ⟨"acos", .unary Float.acos⟩,
  ⟨"acosh", .unary Number.areaCosine⟩,
  ⟨"asin", .unary Float.asin⟩,
  ⟨"asinh", .unary Number.areaSine⟩,
  ⟨"atan", .unary Float.atan⟩,
  ⟨"atanh", .unary Number.areaTangent⟩,
  ⟨"ceil", .unary Float.ceil⟩,
  ⟨"cos", .unary Float.cos⟩,
  ⟨"cosh", .unary Float.cosh⟩,
  ⟨"cot", .unary Number.cotangent⟩,
  ⟨"csc", .unary Number.cosecant⟩,
  ⟨"sec", .unary Number.secant⟩,
  ⟨"exp", .unary Float.exp⟩,
  ⟨"expm1", .unary Number.expMinusOne⟩,
  ⟨"floor", .unary Float.floor⟩,
  ⟨"frac", .unary Number.fraction⟩,
  ⟨"log", .unary Float.log⟩,
  ⟨"log10", .unary Float.log10⟩,
  ⟨"log1p", .unary Number.logOnePlus⟩,
  ⟨"log2", .unary Float.log2⟩,
  ⟨"round", .unary Float.round⟩,
  ⟨"sgn", .unary Number.sign⟩,
  ⟨"sin", .unary Float.sin⟩,
  ⟨"sinc", .unary Number.sinc⟩,
  ⟨"sinh", .unary Float.sinh⟩,
  ⟨"sqrt", .unary Float.sqrt⟩,
  ⟨"tan", .unary Float.tan⟩,
  ⟨"tanh", .unary Float.tanh⟩,
  ⟨"trunc", .unary Number.truncate⟩,
  ⟨"deg2rad", .unary Number.degreesToRadians⟩,
  ⟨"rad2deg", .unary Number.radiansToDegrees⟩,
  ⟨"deg2grad", .unary Number.degreesToGradians⟩,
  ⟨"grad2deg", .unary Number.gradiansToDegrees⟩,
  ⟨"notnot", .unary fun x => Number.ofBool (Number.isTrue x)⟩,
  ⟨"atan2", .binary Float.atan2⟩,
  ⟨"hypot", .binary Number.hypotenuse⟩,
  ⟨"logn", .binary Number.logarithm⟩,
  ⟨"pow", .binary Float.pow⟩,
  ⟨"root", .binary Number.root⟩,
  ⟨"roundn", .binary Number.roundTo⟩,
  ⟨"equal", .binary fun x y => Number.ofBool (Number.nearlyEqual x y)⟩,
  ⟨"not_equal", .binary fun x y => Number.ofBool (!Number.nearlyEqual x y)⟩,
  ⟨"clamp", .ternary Number.clamp⟩,
  ⟨"inrange", .ternary Number.inRange⟩,
  ⟨"iclamp", .ternary Number.clampOut⟩,
  ⟨"min", .aggregate .min⟩,
  ⟨"max", .aggregate .max⟩,
  ⟨"sum", .aggregate .sum⟩,
  ⟨"avg", .aggregate .average⟩,
  ⟨"mul", .aggregate .product⟩]

/-- The built-in function of the given name. -/
def find? (name : String) : Option Builtin :=
  all.find? (·.name == name)

end Builtin

end LiveExpr
