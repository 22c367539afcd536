import LiveExpr.Text.Printable

/-!
Quoted text: a string between double quotes in which everything that could be mistaken is escaped.
-/

namespace LiveExpr.Text

/-- One character of a quoted text. A character that does not stand for itself is written by its code
point in hexadecimal. -/
def quoteChar (c : Char) : String :=
  match c with
  | '"' => "\\\""
  | '\\' => "\\\\"
  | '\n' => "\\n"
  | '\t' => "\\t"
  | '\r' => "\\r"
  | '\x00' => "\\0"
  | _ =>
    if isPrintable c then String.singleton c
    else "\\u\x7b" ++ String.ofList (Nat.toDigits 16 c.toNat) ++ "\x7d"

/-- The text between double quotes, with escapes. -/
def quote (text : String) : String :=
  "\"" ++ String.join (text.toList.map quoteChar) ++ "\""

end LiveExpr.Text
