import LiveExpr.Node

/-!
The length of the vectors that nodes produce. It depends on the lengths of cells alone, which never change,
and so is known without evaluating anything.
-/

namespace LiveExpr

/-- The smaller of two lengths, where there is one. -/
def shorterExtent : Option Nat → Option Nat → Option Nat
  | some left, some right => some (min left right)
  | some left, none => some left
  | none, right => right

mutual

/-- The number of elements that a vector node produces; scalars and strings have no extent. -/
def Node.extent (store : Store) {k : Kind} : Node k → Option Nat
  | .vectorVariable cell => some (store.vector cell).length
  | .reset target _ _ => some (store.vector target).length
  | .vectorAssign target _ _ => some (store.vector target).length
  | .negate vector => vector.extent store
  | .map _ vector => vector.extent store
  | .elementwise first rest =>
    some ((shorterExtent (first.extent store) (elementwiseExtent store rest)).getD 1)
  | .sequence _ result => result.extent store
  | @Node.missing .vector => some 0
  | _ => none

def Operand.extent (store : Store) : Operand → Option Nat
  | .vector vector => vector.extent store
  | .scalar _ => none

/-- The length of the shortest vector among the right operands of a run. -/
def elementwiseExtent (store : Store) : List (BinaryOperator × Operand) → Option Nat
  | [] => none
  | (_, operand) :: rest => shorterExtent (operand.extent store) (elementwiseExtent store rest)

end

/-- The number of elements that a vector node produces. -/
def Node.length (store : Store) (vector : Node .vector) : Nat :=
  (vector.extent store).getD 0

end LiveExpr
