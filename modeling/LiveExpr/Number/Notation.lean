import LiveExpr.Number.Shortest

/-!
How numbers are written. `plain` never uses an exponent and writes whole numbers without a point; `pointed`
always shows a point or an exponent; `significant` gives a fixed count of digits in scientific form.
-/

namespace LiveExpr.Number

def zeros (count : Nat) : String :=
  String.ofList (List.replicate count '0')

/-- A decimal written positionally: zeros fill the gap between its digits and the point. -/
def Decimal.positional (d : Decimal) : String :=
  let digits := Nat.repr d.digits
  if 0 ≤ d.exponent then
    if d.digits == 0 then digits else digits ++ zeros d.exponent.toNat
  else
    let places := (-d.exponent).toNat
    if places < digits.length then
      (digits.take (digits.length - places)).toString ++ "." ++
        (digits.drop (digits.length - places)).toString
    else "0." ++ zeros (places - digits.length) ++ digits

def Decimal.scientific (d : Decimal) : String :=
  let digits := Nat.repr d.digits
  let power := d.exponent + (digits.length : Int) - 1
  let fraction := (digits.drop 1).toString
  (digits.take 1).toString ++ (if fraction.isEmpty then "" else "." ++ fraction) ++ "e" ++ toString power

/-- Writes a number whose magnitude is written by `magnitude`: the sign comes first, also that of `-0`, and
what is not finite has a name. -/
def signed (magnitude : Magnitude → String) (x : Float) : String :=
  if x.isNaN then "NaN"
  else
    (if isNegative x then "-" else "") ++ (if x.isInf then "inf" else magnitude (.ofFloat x))

def plain (x : Float) : String :=
  signed (fun size => size.shortest.positional) x

/-- The number with a point or an exponent: positional from `10 ^ -4` up to `10 ^ 16`, a whole number
ending in `.0`, and scientific outside. -/
def pointed (x : Float) : String :=
  signed (fun size =>
    let d := size.shortest
    let power := d.exponent + (Nat.repr d.digits).length
    if d.digits == 0 then "0.0"
    else if -4 < power && power ≤ 16 then
      if 0 ≤ d.exponent then d.positional ++ ".0" else d.positional
    else d.scientific) x

/-- The number rounded to `count` significant digits in scientific form, all of them written. A half goes
to the even neighbour. -/
def significant (count : Nat) (x : Float) : String :=
  signed (fun size =>
    if size.significand == 0 then
      (if count ≤ 1 then "0" else "0." ++ zeros (count - 1)) ++ "e0"
    else
      let power := size.decimalScale - count
      let (numerator, denominator) := size.overPower power
      let rounded := roundQuotient numerator denominator
      if rounded < Nat.pow 10 count then (Decimal.mk rounded power).scientific
      else (Decimal.mk (Nat.pow 10 (count - 1)) (power + 1)).scientific) x

example : plain (0.1 + 0.2) = "0.30000000000000004" := by decide +kernel
example : plain 1e-7 = "0.0000001" := by decide +kernel

end LiveExpr.Number
