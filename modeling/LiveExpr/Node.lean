import LiveExpr.Builtin
import LiveExpr.Store

/-!
The graph that a formula is compiled to. A node has the kind of the value that it produces; it holds the
cells that it reads and writes, and no names. Runs of operators, statements, arguments and cases are lists,
so a long formula gives a wide graph and not a deep one.
-/

namespace LiveExpr

mutual

/-- A node that produces a value of the given kind. -/
inductive Node : Kind → Type where
  -- scalars
  | constant (value : Float) : Node .scalar
  | variable (cell : NumberCell) : Node .scalar
  | unary (op : UnaryOperator) (operand : Node .scalar) : Node .scalar
  | binary (op : BinaryOperator) (left right : Node .scalar) : Node .scalar
  /-- A run of operators, applied from left to right. -/
  | chain (first : Node .scalar) (rest : List (BinaryOperator × Node .scalar)) : Node .scalar
  | conditional (condition consequent alternative : Node .scalar) : Node .scalar
  /-- The value of the first case whose condition is true. -/
  | choice (cases : List (Node .scalar × Node .scalar)) (otherwise : Node .scalar) : Node .scalar
  /-- `start` once; then, while the condition is true and the limit is not reached, `body` and `step`. -/
  | loop (start : (k : Kind) × Node k) (condition : Node .scalar) (step body : (k : Kind) × Node k)
      (limit : Option Nat) : Node .scalar
  | assign (target : NumberCell) (op : Option BinaryOperator) (value : Node .scalar) : Node .scalar
  | element (vector : Node .vector) (index : Node .scalar) : Node .scalar
  | assignElement (target : VectorCell) (index : Node .scalar) (op : Option BinaryOperator)
      (value : Node .scalar) : Node .scalar
  | vectorSize (vector : Node .vector) : Node .scalar
  | stringLength (string : Node .string) : Node .scalar
  | stringCompare (op : BinaryOperator) (left right : Node .string) : Node .scalar
  | stringMatch (op : StringOperator) (left right : Node .string) : Node .scalar
  | builtin (function : Builtin) (arguments : List (Node .scalar)) : Node .scalar
  | vectorAggregate (op : Aggregate) (vector : Node .vector) : Node .scalar
  | userCall (function : FunctionHandle) (arguments : List (Node .scalar)) : Node .scalar
  -- strings
  | literal (content : Bytes) : Node .string
  | stringVariable (cell : StringCell) : Node .string
  | concat (parts : List (Node .string)) : Node .string
  /-- The bytes from one position to another, both included. -/
  | substring (source : Node .string) (first last : Node .scalar) : Node .string
  | stringConditional (condition : Node .scalar) (consequent alternative : Node .string) : Node .string
  | stringAssign (target : StringCell) (append : Bool) (value : Node .string) : Node .string
  -- vectors
  | vectorVariable (cell : VectorCell) : Node .vector
  | negate (vector : Node .vector) : Node .vector
  /-- A function of one number, applied to every element. -/
  | map (apply : Float → Float) (vector : Node .vector) : Node .vector
  /-- A run of arithmetic operators, applied element by element from left to right. -/
  | elementwise (first : Operand) (rest : List (BinaryOperator × Operand)) : Node .vector
  | vectorAssign (target : VectorCell) (op : Option BinaryOperator) (value : Operand) : Node .vector
  /-- Gives a declared vector its first content: the values and zeros after them or, with `fill`, the only
  value everywhere. -/
  | reset (target : VectorCell) (values : List (Node .scalar)) (fill : Bool) : Node .vector
  -- any kind
  /-- Statements run for their effects, and then the result. -/
  | sequence {k : Kind} (statements : List ((k : Kind) × Node k)) (result : Node k) : Node k
  /-- Stands for a node that could not be made. Why it could not has been reported. -/
  | missing {k : Kind} : Node k

/-- One side of an operation on vectors. -/
inductive Operand : Type where
  | vector (vector : Node .vector)
  /-- A scalar stands for a vector of any length with this value everywhere. -/
  | scalar (scalar : Node .scalar)

end

/-- A node of any kind. -/
abbrev AnyNode : Type := (k : Kind) × Node k

namespace AnyNode

def kind (node : AnyNode) : Kind :=
  node.1

def scalar (node : Node .scalar) : AnyNode := ⟨.scalar, node⟩

def string (node : Node .string) : AnyNode := ⟨.string, node⟩

def vector (node : Node .vector) : AnyNode := ⟨.vector, node⟩

def skip : AnyNode := scalar (.constant 0.0)

/-- The result after the statements; without statements the result alone. -/
def sequence (statements : List AnyNode) (result : AnyNode) : AnyNode :=
  if statements.isEmpty then result else ⟨result.1, .sequence statements result.2⟩

end AnyNode

/-! ## Joining operands

Each of these extends a run that its left operand already is.
-/

namespace Node

/-- A scalar operation. A run on the left takes the operator and the right operand at its end. -/
def operation (op : BinaryOperator) (left right : Node .scalar) : Node .scalar :=
  match left with
  | .chain first rest => .chain first (rest ++ [(op, right)])
  | .binary inner first second => .chain first [(inner, second), (op, right)]
  | left => .binary op left right

/-- The parts that a string is joined from. -/
def parts : Node .string → List (Node .string)
  | .concat parts => parts
  | string => [string]

/-- A concatenation. -/
def joined (left right : Node .string) : Node .string :=
  .concat (left.parts ++ right.parts)

/-- An operation on vectors, element by element. A run on the left takes the operator and the right operand
at its end. -/
def elementOperation (op : BinaryOperator) (left right : Operand) : Node .vector :=
  match left with
  | .vector (.elementwise first rest) => .elementwise first (rest ++ [(op, right)])
  | left => .elementwise left [(op, right)]

end Node

end LiveExpr
