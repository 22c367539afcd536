import LiveExpr.Text.Bytes

/-!
String literals. Between single quotes a character stands for its UTF-8 bytes, and a backslash starts an
escape: for a backslash, a quote, a newline, a tab, a carriage return, a zero byte, or, after `x`, for the
byte with the two hexadecimal digits that follow.
-/

namespace LiveExpr.Literal

def hexDigit? (c : Char) : Option UInt8 :=
  if '0' ≤ c && c ≤ '9' then some (c.toNat - '0'.toNat).toUInt8
  else if 'a' ≤ c && c ≤ 'f' then some (c.toNat - 'a'.toNat + 10).toUInt8
  else if 'A' ≤ c && c ≤ 'F' then some (c.toNat - 'A'.toNat + 10).toUInt8
  else none

/-- The byte that an escape of one character stands for. -/
def escape? (c : Char) : Option UInt8 :=
  if c = '\\' then some 92
  else if c = '\x27' then some 39
  else if c = 'n' then some 10
  else if c = 't' then some 9
  else if c = 'r' then some 13
  else if c = '0' then some 0
  else none

/-- The bytes that the inside of a literal stands for, unless it has an escape that is none of the above. -/
def decode? : List Char → Option Bytes
  | [] => some []
  | '\\' :: 'x' :: high :: low :: rest => do
    let high ← hexDigit? high
    let low ← hexDigit? low
    let bytes ← decode? rest
    some ((high * 16 + low) :: bytes)
  | '\\' :: c :: rest => do
    let byte ← escape? c
    let bytes ← decode? rest
    some (byte :: bytes)
  | '\\' :: [] => none
  | c :: rest => (decode? rest).map (String.utf8EncodeChar c ++ ·)

/-- How many characters the inside of a literal takes after `taken` have been counted, and whether a closing
quote follows. It ends at the first quote that is not escaped, and before a newline. -/
def extent (taken : Nat) : List Char → Nat × Bool
  | [] => (taken, false)
  | '\\' :: c :: rest => if c = '\n' then (taken, false) else extent (taken + 2) rest
  | '\\' :: [] => (taken, false)
  | c :: rest =>
    if c = '\x27' then (taken, true)
    else if c = '\n' then (taken, false)
    else extent (taken + 1) rest

end LiveExpr.Literal
