import LiveExpr.Node.Evaluation

/-!
Constant folding. A node whose value cannot change is replaced by that value; a conditional whose condition
is constant is replaced by the branch that it selects.
-/

namespace LiveExpr.Node

def isConstant : Node .scalar → Bool
  | .constant _ => true
  | _ => false

def isLiteral : Node .string → Bool
  | .literal _ => true
  | _ => false

/-- Whether the node has the same value in every store and evaluating it has no effect. The length of a
vector cell counts, since it never changes. -/
def isFoldable : Node .scalar → Bool
  | .unary _ operand => operand.isConstant
  | .binary _ left right => left.isConstant && right.isConstant
  | .chain first rest => first.isConstant && rest.all (·.2.isConstant)
  | .builtin _ arguments => arguments.all isConstant
  | .stringCompare _ left right | .stringMatch _ left right => left.isLiteral && right.isLiteral
  | .stringLength string => string.isLiteral
  | .vectorSize (.vectorVariable _) => true
  | _ => false

/-- The scalar with what is constant at its root worked out. -/
def fold (store : Store) : Node .scalar → Node .scalar
  | .conditional (.constant condition) consequent alternative =>
    if Number.isTrue condition then consequent else alternative
  | node =>
    if node.isFoldable then
      match node.eval 0 store with
      | some (value, _) => .constant value
      | none => node
    else node

/-- Whether the string has the same content in every store and evaluating it has no effect. -/
def isFoldableString : Node .string → Bool
  | .concat parts => parts.all isLiteral
  | .substring source first last => source.isLiteral && first.isConstant && last.isConstant
  | _ => false

/-- The string with what is constant at its root worked out. -/
def foldString (store : Store) : Node .string → Node .string
  | .stringConditional (.constant condition) consequent alternative =>
    if Number.isTrue condition then consequent else alternative
  | node =>
    if node.isFoldableString then
      match node.eval 0 store with
      | some (content, _) => .literal content
      | none => node
    else node

end LiveExpr.Node
