import LiveExpr.Grammar.Reader

/-!
What the readers of one level are given, and the repetitions of the grammar: runs of operators and lists of
items. A repetition counts its rounds down from the bound of the source, which it never exhausts, since each
round takes a lexeme.
-/

namespace LiveExpr.Grammar

/-- The readers of the next deeper level, and the bounds of the source. -/
structure Inner where
  assignment : Reader Tree
  /-- What stands behind a prefix operator or `^`. -/
  operand : Reader Tree
  /-- The subscripts that follow a tree. -/
  subscripts : Tree → Reader Tree
  /-- No repetition goes on longer than this. It is at least the number of lexemes to read. -/
  bound : Nat

/-- Reads operators with their right operands, after those in `found`, which has the last one first.
`soFar` is the tree of what has been read. -/
def operators {α : Type} (sign : Reader (Option α)) (operand : Reader Tree)
    (soFar : List (α × Tree) → Tree) : (bound : Nat) → (found : List (α × Tree)) →
      Reader (List (α × Tree))
  | 0, found => pure found.reverse
  | bound + 1, found => do
    match ← sign with
    | none => pure found.reverse
    | some spelled => do
      let right ← operand.within fun stopped => soFar ((spelled, stopped) :: found).reverse
      operators sign operand soFar bound ((spelled, right) :: found)

def run {α : Type} (bound : Nat) (sign : Reader (Option α)) (operand : Reader Tree)
    (make : Tree → List (α × Tree) → Tree) : Reader Tree := do
  let first ← operand
  let rest ← operators sign operand (make first) bound []
  pure (if rest.isEmpty then first else make first rest)

/-- Reads items separated by commas up to the closing bracket, after those in `found`, which has the last
one first. `soFar` is the tree of what has been read. -/
def items (inner : Inner) (closing : Terminal) (soFar : List (Place × Tree) → Tree) :
    (bound : Nat) → (found : List (Place × Tree)) → Reader (List (Place × Tree))
  | 0, _ => .stopUnexpected
  | bound + 1, found => do
    let start ← Reader.place
    let item ← inner.assignment.within fun stopped => soFar ((start, stopped) :: found).reverse
    let found := (start, item) :: found
    if ← Reader.takes .comma then items inner closing soFar bound found
    else
      let _ ← (Reader.require closing .listEnd).within fun stopped =>
        soFar ((start, stopped) :: found).reverse
      pure found.reverse

/-- Reads a list that may be empty, up to the closing bracket. -/
def list (inner : Inner) (closing : Terminal) (soFar : List (Place × Tree) → Tree) :
    Reader (List (Place × Tree)) := do
  if ← Reader.takes closing then pure [] else items inner closing soFar inner.bound []

end LiveExpr.Grammar
