import LiveExpr.Compile.Progress
import LiveExpr.Node.Folding

/-!
Joining nodes into larger ones. Kinds that do not fit together are reported, and a placeholder stands for
the node that cannot be made.
-/

namespace LiveExpr.Compile

variable (settings : Settings)

/-- Stands for a node that could not be made. -/
def placeholder : AnyNode :=
  .scalar .missing

/-- A scalar with what is constant worked out, if that is wanted. -/
def scalar (node : Node .scalar) : Compile AnyNode :=
  view fun progress => .scalar (if settings.folding then node.fold progress.world.store else node)

/-- A string with what is constant worked out, if that is wanted. -/
def string (node : Node .string) : Compile AnyNode :=
  view fun progress => .string (if settings.folding then node.foldString progress.world.store else node)

def failed (problem : Problem) (place : Place) : Compile AnyNode := do
  report problem place
  pure placeholder

/-! ## Required kinds -/

/-- The node as a scalar. Any other kind is reported at the place where the node starts. -/
def requireScalar (role : Role) (place : Place) : AnyNode → Compile (Node .scalar)
  | ⟨.scalar, node⟩ => pure node
  | ⟨kind, _⟩ => do
    report (.notScalar role kind) place
    pure .missing

/-- The node as a string. Any other kind is reported at the place where the node starts. -/
def requireString (role : Role) (place : Place) : AnyNode → Compile (Node .string)
  | ⟨.string, node⟩ => pure node
  | ⟨kind, _⟩ => do
    report (.notString role kind) place
    pure .missing

def requireScalars (role : Role) : List (Place × AnyNode) → Compile (List (Node .scalar))
  | [] => pure []
  | (place, node) :: rest => do
    let first ← requireScalar role place node
    let rest ← requireScalars role rest
    pure (first :: rest)

/-! ## Prefix operators -/

def negation (sign : Lexeme) : AnyNode → Compile AnyNode
  | ⟨.scalar, node⟩ => scalar settings (.unary .negate node)
  | ⟨.vector, node⟩ => pure (.vector (.negate node))
  | ⟨.string, _⟩ => failed (.signOfString "-") (.lexeme sign)

def affirmation (sign : Lexeme) : AnyNode → Compile AnyNode
  | ⟨.string, _⟩ => failed (.signOfString "+") (.lexeme sign)
  | node => pure node

def denial (start : Place) (node : AnyNode) : Compile AnyNode := do
  let operand ← requireScalar .operandOfNot start node
  scalar settings (.unary .not operand)

/-! ## Operators between operands -/

/-- An arithmetic operation: on scalars, on vectors and scalars, or `+` between strings. -/
def arithmetic (op : BinaryOperator) (sign : Lexeme) (left right : AnyNode) : Compile AnyNode :=
  match left, right with
  | ⟨.scalar, left⟩, ⟨.scalar, right⟩ => scalar settings (.operation op left right)
  | ⟨.vector, left⟩, ⟨.vector, right⟩ =>
    pure (.vector (.elementOperation op (.vector left) (.vector right)))
  | ⟨.vector, left⟩, ⟨.scalar, right⟩ =>
    pure (.vector (.elementOperation op (.vector left) (.scalar right)))
  | ⟨.scalar, left⟩, ⟨.vector, right⟩ =>
    pure (.vector (.elementOperation op (.scalar left) (.vector right)))
  | ⟨.string, left⟩, ⟨.string, right⟩ =>
    if op = .add then string settings (.joined left right)
    else failed (.operands op .string .string) (.lexeme sign)
  | ⟨left, _⟩, ⟨right, _⟩ => failed (.operands op left right) (.lexeme sign)

def logical (op : BinaryOperator) (leftStart : Place) (left : AnyNode) (rightStart : Place)
    (right : AnyNode) : Compile AnyNode := do
  let left ← requireScalar (.operandOf op) leftStart left
  let right ← requireScalar (.operandOf op) rightStart right
  scalar settings (.operation op left right)

def comparison (op : BinaryOperator) (sign : Lexeme) (left right : AnyNode) : Compile AnyNode :=
  match left, right with
  | ⟨.scalar, left⟩, ⟨.scalar, right⟩ => scalar settings (.operation op left right)
  | ⟨.string, left⟩, ⟨.string, right⟩ => scalar settings (.stringCompare op left right)
  | ⟨left, _⟩, ⟨right, _⟩ => failed (.notComparable left right) (.lexeme sign)

def stringTest (op : StringOperator) (sign : Lexeme) (left right : AnyNode) : Compile AnyNode :=
  match left, right with
  | ⟨.string, left⟩, ⟨.string, right⟩ => scalar settings (.stringMatch op left right)
  | ⟨left, _⟩, ⟨right, _⟩ => failed (.notStrings sign.text left right) (.lexeme sign)

def relation (sign : Lexeme) (left right : AnyNode) : Compile AnyNode :=
  match sign.token.stringOperator?, sign.token.binaryOperator? with
  | some op, _ => stringTest settings op sign left right
  | none, some op => comparison settings op sign left right
  | none, none => pure placeholder

/-! ## Conditionals -/

def emptyText : Node .string := .literal []

/-- A conditional with both branches, which are both scalars or both strings. -/
def conditional (condition : Node .scalar) (branch : Place) (consequent alternative : AnyNode) :
    Compile AnyNode :=
  match consequent, alternative with
  | ⟨.scalar, consequent⟩, ⟨.scalar, alternative⟩ =>
    scalar settings (.conditional condition consequent alternative)
  | ⟨.string, consequent⟩, ⟨.string, alternative⟩ =>
    string settings (.stringConditional condition consequent alternative)
  | ⟨.vector, _⟩, _ => failed .vectorBranch branch
  | _, ⟨.vector, _⟩ => failed .vectorBranch branch
  | ⟨left, _⟩, ⟨right, _⟩ => failed (.unlikeBranches left right) branch

/-- A conditional with one branch. In place of the other stands NaN or the empty string. -/
def conditionalOnly (condition : Node .scalar) (branch : Place) (consequent : AnyNode) :
    Compile AnyNode :=
  match consequent with
  | ⟨.scalar, consequent⟩ =>
    scalar settings (.conditional condition consequent (.constant Number.nan))
  | ⟨.string, consequent⟩ => string settings (.stringConditional condition consequent emptyText)
  | ⟨.vector, _⟩ => failed .vectorBranch branch

/-! ## Subscripts -/

def size (bracket : Lexeme) : AnyNode → Compile AnyNode
  | ⟨.vector, base⟩ => scalar settings (.vectorSize base)
  | ⟨.string, base⟩ => scalar settings (.stringLength base)
  | ⟨.scalar, _⟩ => failed .scalarSize (.lexeme bracket)

def element (bracket : Lexeme) (base : AnyNode) (start : Place) (index : AnyNode) :
    Compile AnyNode := do
  let index ← requireScalar .index start index
  match base with
  | ⟨.vector, base⟩ => pure (.scalar (.element base index))
  | ⟨kind, _⟩ => failed (.notIndexable kind) (.lexeme bracket)

def range (bracket : Lexeme) (base : AnyNode) (firstStart : Place) (first : AnyNode)
    (lastStart : Place) (last : AnyNode) : Compile AnyNode := do
  let first ← requireScalar .rangeStart firstStart first
  let last ← requireScalar .rangeEnd lastStart last
  match base with
  | ⟨.string, base⟩ => string settings (.substring base first last)
  | ⟨kind, _⟩ => do
    report (.notSliceable kind) (.lexeme bracket)
    pure (.string .missing)

/-! ## Calls -/

/-- A call of a built-in function on arguments of a number that it accepts. A function of one number applied
to a vector is applied to its elements, and a reduction reduces them. -/
def builtinCall (word : Lexeme) (function : Builtin) (arguments : List (Place × AnyNode)) :
    Compile AnyNode :=
  match arguments with
  | [(_, ⟨.vector, vector⟩)] =>
    match function.computation with
    | .unary apply => pure (.vector (.map apply vector))
    | .aggregate op => pure (.scalar (.vectorAggregate op vector))
    | .binary _ | .ternary _ => failed (.noVectorArgument function.name) (.lexeme word)
  | _ => do
    let arguments ← requireScalars .argument arguments
    scalar settings (.builtin function arguments)

def userCall (function : FunctionHandle) (arguments : List (Place × AnyNode)) : Compile AnyNode := do
  let arguments ← requireScalars .argument arguments
  pure (.scalar (.userCall function arguments))

end LiveExpr.Compile
