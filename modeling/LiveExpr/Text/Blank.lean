/-!
Blank characters: those with the Unicode property of white space.
-/

namespace LiveExpr.Text

def blankRanges : List (Nat × Nat) :=
  [(0x9, 0xD), (0x20, 0x20), (0x85, 0x85), (0xA0, 0xA0), (0x1680, 0x1680), (0x2000, 0x200A),
    (0x2028, 0x2029), (0x202F, 0x202F), (0x205F, 0x205F), (0x3000, 0x3000)]

def isBlankCharacter (c : Char) : Bool :=
  blankRanges.any fun (first, last) => first ≤ c.toNat && c.toNat ≤ last

def trim (text : String) : String :=
  String.ofList (((text.toList.dropWhile isBlankCharacter).reverse.dropWhile isBlankCharacter).reverse)

end LiveExpr.Text
