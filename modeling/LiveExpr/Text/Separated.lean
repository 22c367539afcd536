/-!
Texts with separators.
-/

namespace LiveExpr.Text

/-- The parts between the separators, of which there is one more than there are separators. -/
def separated (separator : Char) : List Char → List (List Char)
  | [] => [[]]
  | c :: rest =>
    match separated separator rest with
    | [] => [[c]]
    | first :: more => if c = separator then [] :: first :: more else (c :: first) :: more

example : separated ',' "1,,2".toList = ["1".toList, [], "2".toList] := by decide +kernel

end LiveExpr.Text
