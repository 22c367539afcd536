import LiveExpr.Node.Evaluation

/-!
What joined nodes evaluate to. A node that extends a run evaluates as if it had the run for its left operand;
only the nesting is different.
-/

namespace LiveExpr

theorem Eval.id_map {α : Type} (computation : Eval α) : id <$> computation = computation := by
  funext store
  change (computation >>= pure) store = computation store
  rw [bind_apply]
  cases computation store <;> rfl

theorem Eval.bind_assoc {α β γ : Type} (first : Eval α) (second : α → Eval β) (third : β → Eval γ) :
    first >>= second >>= third = first >>= fun value => second value >>= third := by
  funext store
  simp only [bind_apply]
  cases first store <;> rfl

instance : LawfulMonad Eval :=
  LawfulMonad.mk' Eval Eval.id_map (fun _ _ => rfl) Eval.bind_assoc

/-! ## Scalars -/

theorem evalChain_append (fuel : Nat) (value : Float) (first second : List (BinaryOperator × Node .scalar)) :
    evalChain fuel value (first ++ second) =
      evalChain fuel value first >>= fun value => evalChain fuel value second := by
  induction first generalizing value with
  | nil => simp [evalChain]
  | cons step rest induction => simp [evalChain, induction]

theorem Node.eval_operation (fuel : Nat) (op : BinaryOperator) (left right : Node .scalar) :
    (Node.operation op left right).eval fuel =
      left.eval fuel >>= fun value => op.continueWith value (right.eval fuel) := by
  unfold Node.operation
  split
  · simp [Node.eval, evalChain_append, evalChain]
  · simp [Node.eval, evalChain]
  · simp [Node.eval]

/-! ## Strings -/

theorem evalParts_append (fuel : Nat) (first second : List (Node .string)) :
    evalParts fuel (first ++ second) = (do
      let bytes ← evalParts fuel first
      let more ← evalParts fuel second
      pure (bytes ++ more)) := by
  induction first with
  | nil => simp [evalParts]
  | cons part rest induction =>
    simp only [List.cons_append, evalParts, induction, bind_assoc, pure_bind, List.append_assoc]

theorem Node.evalParts_parts (fuel : Nat) (string : Node .string) :
    evalParts fuel string.parts = string.eval fuel := by
  unfold Node.parts
  split <;> simp [Node.eval, evalParts]

theorem Node.eval_joined (fuel : Nat) (left right : Node .string) :
    (Node.joined left right).eval fuel = (do
      let bytes ← left.eval fuel
      let more ← right.eval fuel
      pure (bytes ++ more)) := by
  simp only [Node.joined, Node.eval, evalParts_append, Node.evalParts_parts]

/-! ## Vectors -/

def Operand.isVector : Operand → Bool
  | .vector _ => true
  | .scalar _ => false

/-- Whether one of the operands of a run is a vector. A run of scalars alone has one element. -/
def runsOverVector (first : Operand) (rest : List (BinaryOperator × Operand)) : Bool :=
  first.isVector || rest.any (·.2.isVector)

theorem runsOverVector_append {first : Operand} {rest : List (BinaryOperator × Operand)}
    (spans : runsOverVector first rest = true) (more : List (BinaryOperator × Operand)) :
    runsOverVector first (rest ++ more) = true := by
  rw [runsOverVector, List.any_append, ← Bool.or_assoc]
  exact Bool.or_eq_true_iff.mpr (.inl spans)

/-- Whether the node is no run of scalars alone. -/
def Node.isPointwise {k : Kind} : Node k → Bool
  | .elementwise first rest => runsOverVector first rest
  | _ => true

namespace Broadcast

def isEach : Broadcast → Bool
  | each _ => true
  | same _ => false

theorem each_elements {value : Broadcast} (isEach : value.isEach = true) : each value.elements = value := by
  cases value with
  | each values => rfl
  | same value => cases isEach

theorem isEach_apply (op : BinaryOperator) (left right : Broadcast) :
    (Broadcast.apply op left right).isEach = (left.isEach || right.isEach) := by
  cases left <;> cases right <;> rfl

end Broadcast

theorem Operand.isEach_of_eval {fuel : Nat} {operand : Operand} {before after : Store} {value : Broadcast}
    (done : operand.eval fuel before = some (value, after)) : value.isEach = operand.isVector := by
  cases operand <;>
  · simp only [Operand.eval, Eval.bind_eq_some, Eval.pure_apply, Option.some.injEq, Prod.mk.injEq] at done
    obtain ⟨_, _, _, rfl, _⟩ := done
    rfl

theorem isEach_of_evalElementwise {fuel : Nat} {rest : List (BinaryOperator × Operand)}
    {value result : Broadcast} {before after : Store}
    (done : evalElementwise fuel value rest before = some (result, after)) :
    result.isEach = (value.isEach || rest.any (·.2.isVector)) := by
  induction rest generalizing value before with
  | nil =>
    cases done
    simp
  | cons step rest induction =>
    obtain ⟨right, middle, evaluated, done⟩ := Eval.bind_eq_some.mp done
    rw [induction done, Broadcast.isEach_apply, Operand.isEach_of_eval evaluated, List.any_cons,
      Bool.or_assoc]

theorem evalElementwise_append (fuel : Nat) (value : Broadcast)
    (first second : List (BinaryOperator × Operand)) :
    evalElementwise fuel value (first ++ second) =
      evalElementwise fuel value first >>= fun value => evalElementwise fuel value second := by
  induction first generalizing value with
  | nil => simp [evalElementwise]
  | cons step rest induction => simp [evalElementwise, induction]

theorem Operand.eval_run (fuel : Nat) {first : Operand} {rest : List (BinaryOperator × Operand)}
    (spans : runsOverVector first rest = true) :
    (Operand.vector (.elementwise first rest)).eval fuel =
      first.eval fuel >>= fun value => evalElementwise fuel value rest := by
  funext store
  simp only [Operand.eval, Node.eval, Eval.bind_apply]
  cases started : first.eval fuel store with
  | none => rfl
  | some pair =>
    obtain ⟨value, middle⟩ := pair
    cases done : evalElementwise fuel value rest middle with
    | none => simp [done]
    | some pair =>
      obtain ⟨result, after⟩ := pair
      have isEach : result.isEach = true := by
        rw [isEach_of_evalElementwise done, Operand.isEach_of_eval started]
        exact spans
      simp [done, Eval.pure_apply, Broadcast.each_elements isEach]

def Operand.isPointwise : Operand → Bool
  | .vector node => node.isPointwise
  | .scalar _ => true

theorem Node.eval_elementOperation (fuel : Nat) (op : BinaryOperator) {left : Operand}
    (pointwise : left.isPointwise = true) (right : Operand) :
    (Node.elementOperation op left right).eval fuel = (do
      let left ← left.eval fuel
      let right ← right.eval fuel
      pure (Broadcast.apply op left right).elements) := by
  unfold Node.elementOperation
  split
  next first rest =>
    have spans : runsOverVector first rest = true := pointwise
    rw [Operand.eval_run fuel spans]
    simp [Node.eval, evalElementwise_append, evalElementwise]
  next => simp [Node.eval, evalElementwise]

end LiveExpr
