import LiveExpr.Number.Shortest

/-!
Reading numbers. A decimal text is read as an exact quotient and brought to the nearest double; a text in
which the whole number, the fraction or the exponent has an unexpected character is refused.
-/

namespace LiveExpr.Number

def digitsValue (before : Nat) : List Char → Nat
  | [] => before
  | c :: more => digitsValue (10 * before + (c.toNat - '0'.toNat)) more

/-- The double nearest to a decimal. Far outside the range of doubles the power of ten is not formed. -/
def Decimal.toFloat (d : Decimal) (negative : Bool) : Float :=
  let power := d.exponent + (Nat.repr d.digits).length
  if d.digits == 0 || power < -400 then nearest negative 0 1
  else if 400 < power then (if negative then -1.0 / 0.0 else 1.0 / 0.0)
  else nearest negative (d.digits * Nat.pow 10 d.exponent.toNat) (Nat.pow 10 (-d.exponent).toNat)

/-- Reads an exponent: a sign that may be missing and at least one digit, up to the end of the text. -/
def exponent? : List Char → Option Int
  | '+' :: digits => digitsOnly? digits
  | '-' :: digits => (digitsOnly? digits).map (- ·)
  | digits => digitsOnly? digits
where
  digitsOnly? (digits : List Char) : Option Int :=
    if digits.isEmpty || !digits.all Char.isDigit then none else some (digitsValue 0 digits)

/-- Reads an unsigned decimal: digits with at most one point among them and an exponent that may be
missing. One digit is required, before or after the point. -/
def decimal? (text : List Char) : Option Decimal :=
  let whole := text.takeWhile Char.isDigit
  let afterWhole := text.dropWhile Char.isDigit
  let (fraction, tail) :=
    match afterWhole with
    | '.' :: rest => (rest.takeWhile Char.isDigit, rest.dropWhile Char.isDigit)
    | rest => ([], rest)
  if whole.isEmpty && fraction.isEmpty then none
  else
    let digits := digitsValue 0 (whole ++ fraction)
    let places : Int := fraction.length
    match tail with
    | [] => some ⟨digits, -places⟩
    | mark :: power =>
      if mark == 'e' || mark == 'E' then
        (exponent? power).map fun power => ⟨digits, power - places⟩
      else none

/-- Reads an unsigned number: a decimal, or the name of an infinity or NaN in any case. -/
def unsigned? (negative : Bool) (text : List Char) : Option Float :=
  let name := text.map Char.toLower
  if name == "inf".toList || name == "infinity".toList then
    some (if negative then -1.0 / 0.0 else 1.0 / 0.0)
  else if name == "nan".toList then some (0.0 / 0.0)
  else (decimal? text).map (·.toFloat negative)

/-- Reads a number with a sign that may be missing. -/
def read? (text : String) : Option Float :=
  match text.toList with
  | '+' :: rest => unsigned? false rest
  | '-' :: rest => unsigned? true rest
  | rest => unsigned? false rest

end LiveExpr.Number
