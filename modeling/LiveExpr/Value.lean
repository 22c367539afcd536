import LiveExpr.Node.Evaluation
import LiveExpr.Number.Notation

/-!
The results of evaluations.
-/

namespace LiveExpr

inductive Value where
  | number (value : Float)
  | text (content : Bytes)
  | vector (elements : List Float)

namespace Value

def ofContent : (kind : Kind) → kind.Content → Value
  | .scalar, value => number value
  | .string, content => text content
  | .vector, elements => vector elements

def kind : Value → Kind
  | number _ => .scalar
  | text _ => .string
  | vector _ => .vector

/-- The value as it is shown: a number in plain notation, a text decoded, the elements of a vector between
brackets. -/
def display : Value → String
  | number value => Number.plain value
  | text content => Bytes.decode content
  | vector elements => "[" ++ ", ".intercalate (elements.map Number.plain) ++ "]"

end Value

namespace AnyNode

/-- Evaluates a node of any kind. -/
def evaluate (fuel : Nat) (node : AnyNode) : Eval Value := do
  let content ← node.2.eval fuel
  pure (Value.ofContent node.1 content)

end AnyNode

end LiveExpr
